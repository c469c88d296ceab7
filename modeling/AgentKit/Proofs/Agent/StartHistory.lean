/-
# The start time and the history

The start time of an agent is decided by its history. It is the time that the
latest start had read when it got to running, and there is none if a stop has
got to stopped since. Direct changes of state, pauses and resumes, failed hooks
and moves that are refused have no part in it.

So a start time outlives the states in which it is not told. It is told again as
soon as the agent is running again, in whatever way it has got there.
-/

import AgentKit.Proofs.Agent.StartTime

namespace AgentKit

namespace Turn

variable {turn : Turn} {turns : List Turn} {time : Instant}

/-- A start gets to running, with the time it has read. -/
def CommitsStart (turn : Turn) (time : Instant) : Prop :=
  ∃ outcome source, turn.part = .settle .start outcome time ∧
    turn.change? = some (source, .running)

/-- A stop gets to stopped. -/
def CommitsStop (turn : Turn) : Prop :=
  ∃ outcome now source, turn.part = .settle .stop outcome now ∧
    turn.change? = some (source, .stopped)

/-- A start or a stop gets to its target. -/
def CommitsRecord (turn : Turn) : Prop :=
  (∃ time, turn.CommitsStart time) ∨ turn.CommitsStop

/-- The time is that of the latest start that has got to running, and no stop has
got to stopped since. -/
def IsLastStart (turns : List Turn) (time : Instant) : Prop :=
  ∃ earlier start later, turns = earlier ++ start :: later ∧ start.CommitsStart time ∧
    ∀ turn ∈ later, ¬ turn.CommitsRecord

theorem CommitsStart.commitsStart_iff {other : Instant} (commits : turn.CommitsStart time) :
    turn.CommitsStart other ↔ time = other := by
  constructor
  · obtain ⟨_, _, part, _⟩ := commits
    rintro ⟨_, _, same, _⟩
    cases part.symm.trans same
    rfl
  · rintro rfl
    exact commits

theorem CommitsStop.not_commitsStart (commits : turn.CommitsStop) (time : Instant) :
    ¬ turn.CommitsStart time := by
  obtain ⟨_, _, _, part, _⟩ := commits
  rintro ⟨_, _, same, _⟩
  cases part.symm.trans same

theorem not_isLastStart_nil : ¬ IsLastStart [] time := by
  rintro ⟨earlier, start, later, whole, _⟩
  simp at whole

theorem isLastStart_concat :
    IsLastStart (turns ++ [turn]) time ↔
      turn.CommitsStart time ∨ ¬ turn.CommitsRecord ∧ IsLastStart turns time := by
  constructor
  · rintro ⟨earlier, start, later, whole, commits, quiet⟩
    rcases List.eq_nil_or_concat later with rfl | ⟨between, last, rfl⟩
    · obtain ⟨_, same⟩ := List.append_inj' whole rfl
      cases same
      exact .inl commits
    · rw [List.concat_eq_append, ← List.cons_append, ← List.append_assoc] at whole
      obtain ⟨rfl, same⟩ := List.append_inj' whole rfl
      cases same
      refine .inr ⟨quiet turn (by simp), earlier, start, between, rfl, commits, ?_⟩
      intro other mem
      exact quiet other (by simp [mem])
  · rintro (commits | ⟨quiet, earlier, start, later, rfl, commits, before⟩)
    · exact ⟨turns, turn, [], rfl, commits, List.forall_mem_nil _⟩
    · exact ⟨earlier, start, later ++ [turn], by simp, commits,
        forall_mem_append_singleton before quiet⟩

end Turn

/-! ## What a turn does to the recorded time -/

namespace Agent.Run

variable {H : Type} {agent : Agent H} {interleaving : Interleaving}

/-- A turn that commits a start records its time, one that commits a stop erases
the recorded time, and any other leaves it as it was. -/
theorem startedAt_cases (run : agent.Run interleaving) {turn : Turn}
    (happened : turn ∈ interleaving.history) :
    (∃ time, turn.CommitsStart time ∧ turn.outcome.vitals.startedAt = some time) ∨
      (turn.CommitsStop ∧ turn.outcome.vitals.startedAt = none) ∨
      (¬ turn.CommitsRecord ∧ turn.outcome.vitals.startedAt = turn.before.startedAt) := by
  obtain ⟨caller, part, before, ⟨vitals, notices, result⟩⟩ := turn
  have effect : CallSection.Effect before part vitals := run.effect happened
  have moved : ∀ {target : AgentState}, before.state.canMoveTo target →
      before.state.change? target = some (before.state, target) := fun possible =>
    if_neg (AgentState.ne_of_canMoveTo possible)
  cases effect with
  | nothing =>
      refine .inr (.inr ⟨?_, rfl⟩)
      have unchanged : before.state.change? before.state = none := if_pos rfl
      rintro (⟨_, _, _, _, changed⟩ | ⟨_, _, _, _, changed⟩)
      · cases unchanged.symm.trans changed
      · cases unchanged.symm.trans changed
  | changed possible =>
      refine .inr (.inr ⟨?_, rfl⟩)
      rintro (⟨_, _, _, part, _⟩ | ⟨_, _, _, part, _⟩) <;> cases part
  | entered own possible =>
      refine .inr (.inr ⟨?_, rfl⟩)
      rintro (⟨_, _, _, part, _⟩ | ⟨_, _, _, part, _⟩) <;> cases part
  | @completed operation outcome now sound possible =>
      cases operation with
      | start => exact .inl ⟨now, ⟨outcome, _, rfl, moved possible⟩, rfl⟩
      | stop => exact .inr (.inl ⟨⟨outcome, now, _, rfl, moved possible⟩, rfl⟩)
      | pause | resume =>
          refine .inr (.inr ⟨?_, rfl⟩)
          rintro (⟨_, _, _, part, _⟩ | ⟨_, _, _, part, _⟩) <;> cases part
  | failed failure possible =>
      refine .inr (.inr ⟨?_, rfl⟩)
      rintro (⟨_, _, _, _, changed⟩ | ⟨_, _, _, _, changed⟩)
      · cases (moved possible).symm.trans changed
      · cases (moved possible).symm.trans changed

/-- The recorded time is that of the last start. -/
theorem startedAt_eq_some_iff (run : agent.Run interleaving) (fresh : agent.vitals = {})
    {time : Instant} :
    interleaving.vitals.startedAt = some time ↔ Turn.IsLastStart interleaving.history time := by
  induction run with
  | begin =>
      rw [fresh]
      exact ⟨nofun, fun last => absurd last Turn.not_isLastStart_nil⟩
  | @next interleaving run event admitted ih =>
      cases event with
      | made call => exact ih
      | turn caller part =>
          change (interleaving.turn agent.profile caller part).outcome.vitals.startedAt = _ ↔
            Turn.IsLastStart (interleaving.history ++ [interleaving.turn agent.profile caller part]) _
          rw [Turn.isLastStart_concat, ← ih]
          have happened : interleaving.turn agent.profile caller part ∈
              (interleaving.after agent.profile (.turn caller part)).history :=
            List.mem_append_right _ List.mem_cons_self
          rcases (run.next _ admitted).startedAt_cases happened with
            ⟨other, commits, recorded⟩ | ⟨commits, erased⟩ | ⟨quiet, kept⟩
          · rw [recorded, Option.some.injEq, commits.commitsStart_iff]
            constructor
            · exact .inl
            · rintro (same | ⟨quiet, _⟩)
              · exact same
              · exact absurd (.inl ⟨other, commits⟩) quiet
          · rw [erased]
            constructor
            · exact nofun
            · rintro (starts | ⟨quiet, _⟩)
              · exact absurd starts (commits.not_commitsStart time)
              · exact absurd (.inr commits) quiet
          · rw [kept]
            constructor
            · exact fun recorded => .inr ⟨quiet, recorded⟩
            · rintro (starts | ⟨_, recorded⟩)
              · exact absurd (.inl ⟨time, starts⟩) quiet
              · exact recorded

/-- A call whose hook has failed does not get to the target of its operation. -/
theorem target_of_hasFailedHook (run : agent.Run interleaving) {turn : Turn}
    (happened : turn ∈ interleaving.history) (failed : turn.part.HasFailedHook)
    {source target : AgentState} (changed : turn.change? = some (source, target)) :
    target = .failed := by
  have change := (run.fulfils happened).change?_eq
  cases part : turn.part with
  | settle operation outcome now =>
      rw [part] at failed change
      obtain ⟨cause, failure⟩ := failed
      rw [CallSection.attempt?_of_failure failure] at change
      have both := changed.symm.trans change
      simp only [Option.bind_some] at both
      split at both
      · exact congrArg Prod.snd (Option.some.inj both)
      · cases both
  | setState | gate | inspect | commence | leaveHook =>
      rw [part] at failed
      exact failed.elim

/-- Turns of other calls, those after a failed hook and those that do not change the
state commit neither a start nor a stop. -/
theorem startedAt_eq_of_idle (run : agent.Run interleaving) {turn : Turn}
    (happened : turn ∈ interleaving.history)
    (idle : (¬ turn.part.settles .start ∧ ¬ turn.part.settles .stop) ∨
      turn.part.HasFailedHook ∨ turn.change? = none) :
    turn.outcome.vitals.startedAt = turn.before.startedAt := by
  have moving : ∀ {operation outcome now source},
      (operation = .start ∨ operation = .stop) → turn.part = .settle operation outcome now →
      turn.change? ≠ some (source, operation.target) := by
    intro operation outcome now source own part changed
    rcases idle with ⟨notStart, notStop⟩ | failed | unchanged
    · rcases own with rfl | rfl
      · exact notStart (by rw [part]; rfl)
      · exact notStop (by rw [part]; rfl)
    · have target := run.target_of_hasFailedHook happened failed changed
      rcases own with rfl | rfl <;> cases target
    · cases unchanged.symm.trans changed
  rcases run.startedAt_cases happened with ⟨time, commits, _⟩ | ⟨commits, _⟩ | ⟨_, kept⟩
  · obtain ⟨outcome, source, part, changed⟩ := commits
    exact absurd changed (moving (.inl rfl) part)
  · obtain ⟨outcome, now, source, part, changed⟩ := commits
    exact absurd changed (moving (.inr rfl) part)
  · exact kept

end Agent.Run

/-- The start time that an agent tells is that of the latest start that has got to
running since a stop last got to stopped, and it is told by running agents only.
In all other cases there is neither a start time nor an uptime. Only starts and
stops that get to their targets do anything to the recorded time. -/
theorem start_told_iff_isLastStart {H : Type} {builder : AgentBuilder H} {agent : Agent H}
    (built : builder.build = .ok agent) {interleaving : Interleaving}
    (run : agent.Run interleaving) :
    let current : Agent H := { agent with vitals := interleaving.vitals }
    (∀ now time, (current.info now).startedAt = some time ↔
        current.state = .running ∧ Turn.IsLastStart interleaving.history time) ∧
      (∀ now, ¬ (current.state = .running ∧ ∃ time, Turn.IsLastStart interleaving.history time) →
        (current.info now).startedAt = none ∧ (current.info now).uptimeMillis = 0) ∧
      ∀ turn ∈ interleaving.history,
        (¬ turn.part.settles .start ∧ ¬ turn.part.settles .stop) ∨
            turn.part.HasFailedHook ∨ turn.change? = none →
          turn.outcome.vitals.startedAt = turn.before.startedAt := by
  intro current
  obtain ⟨_, _, _, fresh⟩ := builder.profile_of_build built
  have told : ∀ time, current.tellableStart = some time ↔
      current.state = .running ∧ Turn.IsLastStart interleaving.history time := by
    intro time
    rw [← run.startedAt_eq_some_iff fresh]
    by_cases running : current.state = .running
    · simp only [Agent.tellableStart, running, if_true, true_and]
      rfl
    · simp [Agent.tellableStart, running]
  refine ⟨fun now => told, ?_, fun turn => run.startedAt_eq_of_idle⟩
  intro now otherwise
  have untold : current.tellableStart = none := by
    rw [Option.eq_none_iff_forall_ne_some]
    intro time tells
    obtain ⟨running, last⟩ := (told time).mp tells
    exact otherwise ⟨running, time, last⟩
  simp [Agent.info, untold]

/-- A stop finds itself failed when it comes back from its hook, and a second start
finds that its own hook has taken the agent to running already. -/
def runningAgainByHand : List Interleaving.Event :=
  Interleaving.undisturbed 0 .start ⟨5⟩ ++ Interleaving.opening 1 .stop ++
    [.made (.setState .failed), .turn 2 (.setState .failed)] ++
    Interleaving.closing 1 .stop (.returned (.ok ())) ⟨6⟩ ++ Interleaving.opening 3 .start ++
    [.made (.setState .running), .turn 4 (.setState .running)] ++
    Interleaving.closing 3 .start (.returned (.ok ())) ⟨7⟩

/-- The first start is the last one that has got to running, and the agent tells its
time again. -/
theorem start_told_iff_isLastStart_of_runningAgainByHand :
    watchedBuilder.build = .ok watchedAgent ∧
      watchedAgent.Run (watchedAgent.interleaved runningAgainByHand) ∧
      (watchedAgent.interleaved runningAgainByHand).changes =
        [(.unknown, .starting), (.starting, .running), (.running, .stopping),
          (.stopping, .failed), (.failed, .starting), (.starting, .running)] ∧
      Turn.IsLastStart (watchedAgent.interleaved runningAgainByHand).history ⟨5⟩ ∧
      ¬ Turn.IsLastStart (watchedAgent.interleaved runningAgainByHand).history ⟨7⟩ := by
  have run : watchedAgent.Run (watchedAgent.interleaved runningAgainByHand) := by
    apply Agent.Run.begin.afterAll
    repeat' constructor
    all_goals exact fun _ => rfl
  have built : watchedBuilder.build = .ok watchedAgent := rfl
  have told := (start_told_iff_isLastStart built run).1 .epoch
  refine ⟨built, run, rfl, ((told ⟨5⟩).mp rfl).2, fun last => ?_⟩
  cases (told ⟨7⟩).mpr ⟨rfl, last⟩

end AgentKit
