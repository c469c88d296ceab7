/-
# The start time of running agents

A start records its time together with its move to running, and a stop erases it
together with its move to stopped. A resume records nothing, because it expects
an agent that has been running; but it makes sure of this before its hook only.
If the agent has been stopped and is being started anew when the hook is left,
the table of states allows the resume its move to running all the same.

This is the only way in which an agent can be running without a start time as
long as nobody changes the state directly. Without such a resume, running and
paused agents have a start time. Stopped agents never have one.
-/

import AgentKit.Proofs.Agent.Calls
import AgentKit.Proofs.Agent.Path

namespace AgentKit

namespace AgentState

/-- The states of an agent that has been started and not stopped. -/
def IsStarted (state : AgentState) : Prop := state = running ∨ state = paused

end AgentState

/-- A running agent has a start time and a stopped one has none. -/
structure Vitals.IsTimed (vitals : Vitals) : Prop where
  running : vitals.state = .running → vitals.startedAt.isSome
  stopped : vitals.state = .stopped → vitals.startedAt = none

/-- Start times are told by running agents, and by all of them. -/
def Agent.TellsStart {H : Type} (agent : Agent H) : Prop :=
  ∀ now, (agent.info now).startedAt.isSome ↔ (agent.info now).state = .running

theorem Agent.tellsStart_iff {H : Type} {agent : Agent H} :
    agent.TellsStart ↔ (agent.state = .running → agent.vitals.startedAt.isSome) := by
  by_cases inState : agent.state = .running
  · simp only [TellsStart, info, tellableStart, inState, if_true, iff_true, true_implies]
    exact ⟨fun told => told .epoch, fun recorded _ => recorded⟩
  · simp [TellsStart, info, tellableStart, inState]

/-- All vitals an agent has had, from before the first call on. -/
def Agent.pastVitals {H : Type} (agent : Agent H) (interleaving : Interleaving) : List Vitals :=
  agent.vitals :: interleaving.history.map fun turn => turn.outcome.vitals

/-- Whether a call of an operation settles in a section. -/
def CallSection.settles (operation : Operation) : CallSection → Bool
  | settle other _ _ => other = operation
  | _ => false

/-- A resume that completes the phase of a start while no start time is
recorded. -/
def Turn.IsUntimedResume (turn : Turn) : Prop :=
  turn.part.settles .resume ∧ turn.change? = some (.starting, .running) ∧
    turn.before.startedAt = none

instance (turn : Turn) : Decidable turn.IsUntimedResume :=
  inferInstanceAs (Decidable (_ ∧ _ ∧ _))

namespace CallSection.Effect

variable {vitals after : Vitals} {part : CallSection}

/-- Only a stop leads to the stopped state, and it erases the start time. -/
theorem not_timed_of_stopped (effect : Effect vitals part after)
    (indirect : ∀ target, part ≠ .setState target)
    (before : vitals.state = .stopped → vitals.startedAt = none)
    (inState : after.state = .stopped) : after.startedAt = none := by
  cases effect with
  | nothing => exact before inState
  | changed possible => exact absurd rfl (indirect _)
  | @entered operation transient own possible =>
      cases inState
      cases operation <;> cases own
  | @completed operation outcome now sound possible =>
      cases operation with
      | stop => rfl
      | start | pause | resume => cases inState
  | failed failure possible => cases inState

/-- A start time is there once a start has recorded it. A pause keeps it, and so
does a resume of a paused agent; what else a resume may find is excluded here. -/
theorem timed_of_isStarted (effect : Effect vitals part after)
    (indirect : ∀ target, part ≠ .setState target)
    (before : vitals.state.IsStarted → vitals.startedAt.isSome)
    (proper : part.settles .resume → vitals.state = .starting → after.state = .running →
      vitals.startedAt.isSome)
    (inState : after.state.IsStarted) : after.startedAt.isSome := by
  cases effect with
  | nothing => exact before inState
  | changed possible => exact absurd rfl (indirect _)
  | @entered operation transient own possible =>
      cases operation <;> cases own <;> rcases inState with other | other <;> cases other
  | @completed operation outcome now sound possible =>
      cases operation with
      | start => rfl
      | stop => rcases inState with other | other <;> cases other
      | pause => exact before (.inl (AgentState.canMoveTo_paused_iff.mp possible))
      | resume =>
          rcases AgentState.canMoveTo_running_iff.mp possible with starting | paused
          · exact proper rfl starting rfl
          · exact before (.inr paused)
  | failed failure possible => rcases inState with other | other <;> cases other

/-- A resume leaves the start time as it is, however its hook ends. -/
theorem startedAt_of_resume (effect : Effect vitals part after) (resuming : part.settles .resume) :
    after.startedAt = vitals.startedAt := by
  cases effect with
  | nothing => rfl
  | changed possible => rfl
  | entered own possible => rfl
  | @completed operation outcome now sound possible =>
      have same : operation = .resume := of_decide_eq_true resuming
      subst same
      rfl
  | failed failure possible => rfl

end CallSection.Effect

namespace Agent.Run

variable {H : Type} {agent : Agent H} {interleaving : Interleaving}

/-- What holds of a new agent and is kept by every turn has held all along. -/
theorem pastVitals_keep (run : agent.Run interleaving) {P : Vitals → Prop}
    (begin : P agent.vitals)
    (keep : ∀ turn ∈ interleaving.history, P turn.before → P turn.outcome.vitals) :
    ∀ vitals ∈ agent.pastVitals interleaving, P vitals := by
  intro vitals mem
  rcases List.mem_cons.mp mem with rfl | later
  · exact begin
  · obtain ⟨turn, happened, rfl⟩ := List.mem_map.mp later
    exact ((run.linked.keeps begin keep).2 turn happened).2

theorem stopped_has_no_start (run : agent.Run interleaving) (fresh : agent.vitals = {})
    (only : interleaving.OnlyOperations) :
    ∀ vitals ∈ agent.pastVitals interleaving,
      vitals.state = .stopped → vitals.startedAt = none := by
  refine run.pastVitals_keep
    (P := fun vitals => vitals.state = .stopped → vitals.startedAt = none) ?_ ?_
  · rw [fresh]
    exact fun _ => rfl
  · intro turn happened before
    exact (run.effect happened).not_timed_of_stopped
      (run.part_ne_setState only happened) before

theorem started_has_start (run : agent.Run interleaving) (fresh : agent.vitals = {})
    (only : interleaving.OnlyOperations)
    (proper : ∀ turn ∈ interleaving.history, ¬ turn.IsUntimedResume) :
    ∀ vitals ∈ agent.pastVitals interleaving,
      vitals.state.IsStarted → vitals.startedAt.isSome := by
  refine run.pastVitals_keep
    (P := fun vitals => vitals.state.IsStarted → vitals.startedAt.isSome) ?_ ?_
  · rw [fresh]
    rintro (other | other) <;> cases other
  · intro turn happened before
    refine (run.effect happened).timed_of_isStarted
      (run.part_ne_setState only happened) before ?_
    intro resuming starting running
    have completed : turn.change? = some (.starting, .running) := by
      simp [Turn.change?, AgentState.change?, starting, running]
    cases recorded : turn.before.startedAt with
    | some time => rfl
    | none => exact absurd ⟨resuming, completed, recorded⟩ (proper turn happened)

end Agent.Run

/-- The vitals of an agent have been in order all along, and its snapshots with
them, if and only if no resume has completed the phase of a start while no start
time was recorded. Stopped agents have had no start time in any case. -/
theorem timed_iff_no_untimed_resume {H : Type} {builder : AgentBuilder H} {agent : Agent H}
    (built : builder.build = .ok agent) {interleaving : Interleaving}
    (run : agent.Run interleaving) (only : interleaving.OnlyOperations) :
    (∀ vitals ∈ agent.pastVitals interleaving,
        vitals.state = .stopped → vitals.startedAt = none) ∧
      ((∀ vitals ∈ agent.pastVitals interleaving,
          vitals.IsTimed ∧ Agent.TellsStart { agent with vitals := vitals }) ↔
        ∀ turn ∈ interleaving.history, ¬ turn.IsUntimedResume) := by
  obtain ⟨_, _, _, fresh⟩ := builder.profile_of_build built
  have stopped := run.stopped_has_no_start fresh only
  refine ⟨stopped, ?_, ?_⟩
  · rintro timed turn happened ⟨resuming, completed, untimed⟩
    have mem : turn.outcome.vitals ∈ agent.pastVitals interleaving :=
      List.mem_cons_of_mem _ (List.mem_map.mpr ⟨turn, happened, rfl⟩)
    have running : turn.outcome.vitals.state = .running := by
      unfold Turn.change? AgentState.change? at completed
      split at completed
      · cases completed
      · exact congrArg Prod.snd (Option.some.inj completed)
    have kept : turn.outcome.vitals.startedAt = none :=
      ((run.effect happened).startedAt_of_resume resuming).trans untimed
    have recorded := (timed _ mem).1.running running
    rw [kept] at recorded
    cases recorded
  · intro proper vitals mem
    have started := run.started_has_start fresh only proper vitals mem
    exact ⟨⟨fun running => started (.inl running), stopped vitals mem⟩,
      Agent.tellsStart_iff.mpr fun running => started (.inl running)⟩

/-- Two resumes are in their hooks. One of them fails, a new start gets to its
hook, and then the other resume comes back first. -/
def resumeIntoRestart : List Interleaving.Event :=
  Interleaving.undisturbed 0 .start .epoch ++ Interleaving.undisturbed 1 .pause .epoch ++
    Interleaving.opening 2 .resume ++ Interleaving.opening 3 .resume ++
    Interleaving.closing 3 .resume .threwOther .epoch ++ Interleaving.opening 4 .start ++
    Interleaving.closing 2 .resume (.returned (.ok ())) .epoch

/-- The resume completes the phase of a start here too, but a start time is
recorded. -/
theorem timed_iff_no_untimed_resume_of_resumeIntoRestart :
    watchedBuilder.build = .ok watchedAgent ∧
      watchedAgent.Run (watchedAgent.interleaved resumeIntoRestart) ∧
      (watchedAgent.interleaved resumeIntoRestart).OnlyOperations ∧
      (watchedAgent.interleaved resumeIntoRestart).vitals = ⟨.running, some .epoch⟩ ∧
      (∀ turn ∈ (watchedAgent.interleaved resumeIntoRestart).history, ¬ turn.IsUntimedResume) ∧
      ∀ vitals ∈ watchedAgent.pastVitals (watchedAgent.interleaved resumeIntoRestart),
        vitals.IsTimed ∧ Agent.TellsStart { watchedAgent with vitals := vitals } := by
  have run : watchedAgent.Run (watchedAgent.interleaved resumeIntoRestart) := by
    apply Agent.Run.begin.afterAll
    repeat' constructor
    all_goals first | exact fun _ => rfl | exact nofun
  have built : watchedBuilder.build = .ok watchedAgent := rfl
  have only : (watchedAgent.interleaved resumeIntoRestart).OnlyOperations :=
    .of_called [.start, .pause, .resume, .resume, .start] rfl
  have proper : ∀ turn ∈ (watchedAgent.interleaved resumeIntoRestart).history,
      ¬ turn.IsUntimedResume := by decide
  exact ⟨built, run, only, rfl, proper,
    (timed_iff_no_untimed_resume built run only).2.mpr proper⟩

/-- A resume is in its hook while the agent is stopped and a new start gets to
its hook; then the resume comes back first. -/
def resumeIntoStart : List Interleaving.Event :=
  Interleaving.undisturbed 0 .start .epoch ++ Interleaving.undisturbed 1 .pause .epoch ++
    Interleaving.opening 2 .resume ++ Interleaving.undisturbed 3 .stop .epoch ++
    Interleaving.opening 4 .start ++
    Interleaving.closing 2 .resume (.returned (.ok ())) .epoch

/-- An agent can be running without a start time although nobody has changed its
state directly. -/
theorem running_without_start_time :
    watchedBuilder.build = .ok watchedAgent ∧
      watchedAgent.Run (watchedAgent.interleaved resumeIntoStart) ∧
      (watchedAgent.interleaved resumeIntoStart).OnlyOperations ∧
      (watchedAgent.interleaved resumeIntoStart).vitals = ⟨.running, none⟩ ∧
      ¬ Agent.TellsStart
        { watchedAgent with vitals := (watchedAgent.interleaved resumeIntoStart).vitals } := by
  refine ⟨rfl, Agent.Run.begin.afterAll ?_,
    .of_called [.start, .pause, .resume, .stop, .start] rfl, rfl, ?_⟩
  · repeat' constructor
    all_goals exact fun _ => rfl
  · rw [Agent.tellsStart_iff]
    intro told
    cases told rfl

end AgentKit
