/-
# What a section does

A section asks for one move of the agent, or for none. This decides everything
it does to the vitals, and what observers are told is decided by the vitals: if
the state has changed, all of them are told of the change in the order of their
registration, and otherwise none is told of anything. Log records, the reactions
of observers and the results of hooks have no part in it.
-/

import AgentKit.Agent.Interleaving

namespace AgentKit

/-- The change from one state to another, if it is one. -/
def AgentState.change? (source target : AgentState) : Option (AgentState × AgentState) :=
  if source = target then none else some (source, target)

theorem AgentState.ne_of_canMoveTo {source target : AgentState}
    (possible : source.canMoveTo target) : source ≠ target := by
  intro same
  simp [canMoveTo, same] at possible

/-- The vitals after a move has been asked for. -/
def Vitals.afterAttempt (vitals : Vitals) : Option (AgentState × StartTime) → Vitals
  | none => vitals
  | some (target, startTime) =>
    if vitals.state.canMoveTo target then ⟨target, startTime.apply vitals.startedAt⟩ else vitals

/-- Whom an observer's call goes to and what it tells. -/
def Notice.telling? : Notice → Option (String × AgentState × AgentState)
  | log _ _ _ => none
  | observed label source target => some (label, source, target)

/-- The calls of observers in a section. -/
def LockedSection.tellings (locked : LockedSection) : List (String × AgentState × AgentState) :=
  locked.notices.filterMap Notice.telling?

namespace Profile

variable {H : Type} (profile : Profile H)

/-- The observers that are there, in the order of their registration. -/
def audience : List Observer := profile.observers.filterMap fun observer => observer

/-- The calls by which everyone is told of a change once. -/
def tellingsOf (change : AgentState × AgentState) : List (String × AgentState × AgentState) :=
  profile.audience.map fun observer => (observer.label, change)

@[simp]
theorem filterMap_telling?_record (level : LogLevel) (text : String) :
    (profile.record level text).filterMap Notice.telling? = [] :=
  rfl

/-- However an observer reacts, it has been called once. -/
theorem filterMap_telling?_tell (source target : AgentState) (observer : Option Observer) :
    (profile.tell source target observer).filterMap Notice.telling? =
      (observer.map fun present => (present.label, source, target)).toList := by
  cases observer with
  | none => rfl
  | some present =>
      cases reaction : present.react source target <;>
        simp [tell, reaction, Notice.telling?]

theorem filterMap_telling?_tellAll (source target : AgentState) :
    (profile.tellAll source target).filterMap Notice.telling? =
      profile.tellingsOf (source, target) := by
  unfold tellAll tellingsOf audience
  induction profile.observers with
  | nil => rfl
  | cons observer observers ih =>
      rw [List.flatMap_cons, List.filterMap_append, filterMap_telling?_tell, ih]
      cases observer <;> rfl

end Profile

namespace LockedSection

variable {H : Type} {profile : Profile H} {vitals : Vitals}
  {attempt : Option (AgentState × StartTime)} {locked : LockedSection}

/-- A section that does what it is asked for: it moves the agent if the table of
states allows, and everyone is told if the state has changed. -/
structure Fulfils (locked : LockedSection) (profile : Profile H) (vitals : Vitals)
    (attempt : Option (AgentState × StartTime)) : Prop where
  vitals_eq : locked.vitals = vitals.afterAttempt attempt
  tellings_eq : locked.tellings =
    (vitals.state.change? locked.vitals.state).elim [] profile.tellingsOf

theorem fulfils_idle (result : Except Error Unit) :
    Fulfils ⟨vitals, [], result⟩ profile vitals none :=
  ⟨rfl, by simp [AgentState.change?, tellings]⟩

theorem fulfils_move (target : AgentState) (startTime : StartTime) :
    (profile.move vitals target startTime).Fulfils profile vitals (some (target, startTime)) := by
  by_cases possible : vitals.state.canMoveTo target
  · rw [profile.move_of_canMoveTo possible]
    refine ⟨by simp [Vitals.afterAttempt, possible], ?_⟩
    simp [tellings, AgentState.change?, AgentState.ne_of_canMoveTo possible,
      profile.filterMap_telling?_tellAll]
  · rw [profile.move_of_not_canMoveTo possible]
    exact ⟨by simp [Vitals.afterAttempt, possible], by simp [tellings, AgentState.change?]⟩

/-- Log records written after the section, if it succeeded, tell nobody. -/
theorem Fulfils.withRecord (fulfils : locked.Fulfils profile vitals attempt) (level : LogLevel)
    (text : String) :
    LockedSection.Fulfils
      (match locked.result with
        | .ok () => { locked with notices := locked.notices ++ profile.record level text }
        | .error _ => locked)
      profile vitals attempt := by
  split
  · refine ⟨fulfils.vitals_eq, ?_⟩
    simpa [tellings] using fulfils.tellings_eq
  · exact fulfils

end LockedSection

/-! ## Sections of a call -/

namespace CallSection

variable {H : Type} (profile : Profile H) (vitals : Vitals)

/-- The move a section asks for. A call whose hook has failed asks for the
failed state. -/
def attempt? : CallSection → Option (AgentState × StartTime)
  | setState target => some (target, .keep)
  | gate _ _ => none
  | inspect _ => none
  | commence operation => operation.transient?.map fun transient => (transient, .keep)
  | leaveHook _ _ => none
  | settle operation outcome now =>
    match outcome.result with
    | .ok () => some (operation.target, operation.startTime now)
    | .error _ => some (.failed, .keep)

theorem attempt?_of_sound {operation : Operation} {outcome : HookOutcome} {now : Instant}
    (sound : outcome.result = .ok ()) :
    (settle operation outcome now).attempt? = some (operation.target, operation.startTime now) := by
  simp only [attempt?, sound]

theorem attempt?_of_failure {operation : Operation} {outcome : HookOutcome} {now : Instant}
    {cause : Error} (failure : outcome.result = .error cause) :
    (settle operation outcome now).attempt? = some (.failed, .keep) := by
  simp only [attempt?, failure]

theorem fulfils_commence (operation : Operation) :
    (operation.commence profile vitals).Fulfils profile vitals (commence operation).attempt? := by
  unfold Operation.commence
  refine LockedSection.Fulfils.withRecord ?_ _ _
  cases transient : operation.transient? with
  | none =>
      simp only [attempt?, transient, Option.map_none]
      split
      · exact LockedSection.fulfils_idle _
      · exact LockedSection.fulfils_idle _
  | some state =>
      simp only [attempt?, transient, Option.map_some]
      exact LockedSection.fulfils_move state .keep

theorem fulfils_abort (operation : Operation) (cause : Error) :
    (operation.abort profile vitals cause).Fulfils profile vitals (some (.failed, .keep)) := by
  have marking : (profile.setState vitals .failed).Fulfils profile vitals (some (.failed, .keep)) :=
    LockedSection.fulfils_move .failed .keep
  refine ⟨marking.vitals_eq, ?_⟩
  have silent : ∀ rejection : Error,
      (Operation.rejectionRecord profile rejection).filterMap Notice.telling? = [] :=
    fun _ => profile.filterMap_telling?_record _ _
  have same : (operation.abort profile vitals cause).tellings =
      (profile.setState vitals .failed).tellings := by
    cases result : (profile.setState vitals .failed).result <;>
      simp [Operation.abort, Operation.failureRecord, LockedSection.tellings, result, silent]
  exact same.trans marking.tellings_eq

/-- Every section does what it asks for, and nothing else to the vitals or the
observers. -/
theorem fulfils_carryOut (part : CallSection) :
    (part.carryOut profile vitals).Fulfils profile vitals part.attempt? := by
  cases part with
  | setState target => exact LockedSection.fulfils_move target .keep
  | gate operation contextError =>
      cases contextError with
      | none => exact LockedSection.fulfils_idle _
      | some error => exact LockedSection.fulfils_idle _
  | inspect operation => exact LockedSection.fulfils_idle _
  | commence operation => exact fulfils_commence profile vitals operation
  | leaveHook operation outcome => exact LockedSection.fulfils_idle _
  | settle operation outcome now =>
      cases result : outcome.result with
      | ok _ =>
          rw [attempt?_of_sound result]
          simp only [carryOut, Operation.settle, result]
          exact (LockedSection.fulfils_move operation.target
            (operation.startTime now)).withRecord _ _
      | error cause =>
          rw [attempt?_of_failure result]
          simp only [carryOut, Operation.settle, result]
          exact fulfils_abort profile vitals operation cause

/-- What a section can do to the vitals it finds. -/
inductive Effect (vitals : Vitals) : CallSection → Vitals → Prop
  | /-- It asks for no move, or is refused it. -/
    nothing (part : CallSection) : Effect vitals part vitals
  | /-- The state is changed directly. -/
    changed {target : AgentState} (possible : vitals.state.canMoveTo target) :
      Effect vitals (setState target) ⟨target, vitals.startedAt⟩
  | /-- An operation enters its transient state. -/
    entered {operation : Operation} {transient : AgentState}
      (own : operation.transient? = some transient)
      (possible : vitals.state.canMoveTo transient) :
      Effect vitals (commence operation) ⟨transient, vitals.startedAt⟩
  | /-- An operation gets to its target. -/
    completed {operation : Operation} {outcome : HookOutcome} {now : Instant}
      (sound : outcome.result = .ok ()) (possible : vitals.state.canMoveTo operation.target) :
      Effect vitals (settle operation outcome now)
        ⟨operation.target, (operation.startTime now).apply vitals.startedAt⟩
  | /-- The hook of an operation has failed. -/
    failed {operation : Operation} {outcome : HookOutcome} {now : Instant} {cause : Error}
      (failure : outcome.result = .error cause) (possible : vitals.state.canMoveTo .failed) :
      Effect vitals (settle operation outcome now) ⟨.failed, vitals.startedAt⟩

/-- There is nothing else that a section can do to the vitals. -/
theorem effect_carryOut (part : CallSection) :
    Effect vitals part (part.carryOut profile vitals).vitals := by
  rw [(fulfils_carryOut profile vitals part).vitals_eq]
  match asked : part.attempt? with
  | none => exact .nothing part
  | some (target, startTime) =>
      by_cases possible : vitals.state.canMoveTo target
      · simp only [Vitals.afterAttempt, if_pos possible]
        cases part with
        | setState other =>
            cases asked
            exact .changed possible
        | gate operation contextError => cases asked
        | inspect operation => cases asked
        | commence operation =>
            obtain ⟨transient, own, same⟩ := Option.map_eq_some_iff.mp asked
            cases same
            exact .entered own possible
        | leaveHook operation outcome => cases asked
        | settle operation outcome now =>
            cases result : outcome.result with
            | ok _ =>
                cases (attempt?_of_sound result).symm.trans asked
                exact .completed result possible
            | error cause =>
                cases (attempt?_of_failure result).symm.trans asked
                exact .failed result possible
      · simp only [Vitals.afterAttempt, if_neg possible]
        exact .nothing part

/-- The call comes back from a hook that has failed. -/
def HasFailedHook : CallSection → Prop
  | settle _ outcome _ => ∃ cause, outcome.result = .error cause
  | _ => False

/-- A section that asks for a move tells whether it was possible, unless it has
the failure of a hook to tell. -/
theorem result_carryOut {part : CallSection} {target : AgentState} {startTime : StartTime}
    (asked : part.attempt? = some (target, startTime)) (sound : ¬ part.HasFailedHook) :
    (part.carryOut profile vitals).result =
      if vitals.state.canMoveTo target then .ok ()
      else .error (Vitals.invalidMove vitals.state target) := by
  have moved : ∀ startTime, (profile.move vitals target startTime).result =
      if vitals.state.canMoveTo target then .ok ()
      else .error (Vitals.invalidMove vitals.state target) := by
    intro startTime
    by_cases possible : vitals.state.canMoveTo target
    · simp [profile.move_of_canMoveTo possible, possible]
    · simp [profile.move_of_not_canMoveTo possible, possible]
  cases part with
  | setState other =>
      cases asked
      exact moved .keep
  | gate operation contextError => cases asked
  | inspect operation => cases asked
  | commence operation =>
      obtain ⟨transient, found, same⟩ := Option.map_eq_some_iff.mp asked
      cases same
      rw [← moved .keep]
      simp only [carryOut, Operation.commence, found, Profile.setState]
      split <;> rfl
  | leaveHook operation outcome => cases asked
  | settle operation outcome now =>
      cases result : outcome.result with
      | ok _ =>
          cases (attempt?_of_sound result).symm.trans asked
          rw [← moved (operation.startTime now)]
          simp only [carryOut, Operation.settle, result, Operation.complete]
          split <;> rfl
      | error cause => exact absurd ⟨cause, result⟩ sound

end CallSection

/-! ## Turns -/

/-- The change of state in a turn. -/
def Turn.change? (turn : Turn) : Option (AgentState × AgentState) :=
  turn.before.state.change? turn.outcome.vitals.state

/-- The state has changed if and only if the move that was asked for is in the
table, and it has changed as asked. -/
theorem LockedSection.Fulfils.change?_eq {H : Type} {profile : Profile H} {vitals : Vitals}
    {attempt : Option (AgentState × StartTime)} {locked : LockedSection}
    (fulfils : locked.Fulfils profile vitals attempt) :
    vitals.state.change? locked.vitals.state =
      attempt.bind fun asked =>
        if vitals.state.canMoveTo asked.1 then some (vitals.state, asked.1) else none := by
  rw [fulfils.vitals_eq]
  match attempt with
  | none => simp [Vitals.afterAttempt, AgentState.change?]
  | some (target, startTime) =>
      by_cases possible : vitals.state.canMoveTo target
      · simp [Vitals.afterAttempt, AgentState.change?, possible,
          AgentState.ne_of_canMoveTo possible]
      · simp [Vitals.afterAttempt, AgentState.change?, possible]

namespace Agent.Run

variable {H : Type} {agent : Agent H} {interleaving : Interleaving}

/-- The history tells what the sections do, not what they might do. -/
theorem outcome_eq (run : agent.Run interleaving) {turn : Turn}
    (happened : turn ∈ interleaving.history) :
    turn.outcome = turn.part.carryOut agent.profile turn.before := by
  induction run with
  | begin => cases happened
  | next run event admitted ih =>
      cases event with
      | made call => exact ih happened
      | turn caller part =>
          rcases List.mem_append.mp happened with earlier | now
          · exact ih earlier
          · rw [List.mem_singleton.mp now]
            rfl

theorem fulfils (run : agent.Run interleaving) {turn : Turn}
    (happened : turn ∈ interleaving.history) :
    turn.outcome.Fulfils agent.profile turn.before turn.part.attempt? := by
  rw [run.outcome_eq happened]
  exact CallSection.fulfils_carryOut agent.profile turn.before turn.part

theorem effect (run : agent.Run interleaving) {turn : Turn}
    (happened : turn ∈ interleaving.history) :
    CallSection.Effect turn.before turn.part turn.outcome.vitals := by
  rw [run.outcome_eq happened]
  exact CallSection.effect_carryOut agent.profile turn.before turn.part

end Agent.Run

end AgentKit
