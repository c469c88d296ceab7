/-
# Calls in an interleaving

Calls keep their places, and what was called never changes while a call gets on.
An event touches the stage of one call at most, so that whatever is known of the
others stays true.
-/

import AgentKit.Proofs.Agent.Sections

namespace AgentKit

namespace CallSection

/-- A call stays the same call. -/
theorem call_nextStage (part : CallSection) (state : AgentState) (result : Except Error Unit) :
    (part.nextStage state result).call = part.dueAt.call := by
  cases part with
  | setState target => rfl
  | gate operation contextError => cases result <;> rfl
  | inspect operation =>
      simp only [nextStage]
      split <;> rfl
  | commence operation => cases result <;> rfl
  | leaveHook operation outcome => rfl
  | settle operation outcome now => rfl

/-- A call that has not settled yet can leave its hook or settle. -/
theorem eq_of_isUnsettled_dueAt {part : CallSection} {operation : Operation}
    (unsettled : part.dueAt.IsUnsettled operation) :
    (∃ outcome, part = leaveHook operation outcome) ∨
      ∃ outcome now, part = settle operation outcome now := by
  cases part with
  | leaveHook other outcome =>
      rcases unsettled with same | ⟨_, same⟩
      · cases same
        exact .inl ⟨outcome, rfl⟩
      · cases same
  | settle other outcome now =>
      rcases unsettled with same | ⟨_, same⟩
      · cases same
      · cases same
        exact .inr ⟨outcome, now, rfl⟩
  | setState | gate | inspect | commence => rcases unsettled with same | ⟨_, same⟩ <;> cases same

end CallSection

namespace Interleaving

variable {H : Type} {profile : Profile H} {interleaving : Interleaving}

/-- What has been called. -/
def called (interleaving : Interleaving) : List Call :=
  interleaving.calls.map CallStage.call

/-- Nobody has changed the state directly, whether from outside or from inside
a hook. -/
def OnlyOperations (interleaving : Interleaving) : Prop :=
  ∀ call ∈ interleaving.called, ∃ operation, call = .operate operation

theorem called_after_made (call : Call) :
    (interleaving.after profile (.made call)).called = interleaving.called ++ [call] := by
  have first : call.firstStage.call = call := by cases call <;> rfl
  simp [called, after, first]

theorem called_after_turn {caller : Nat} {part : CallSection}
    (due : interleaving.calls[caller]? = some part.dueAt) :
    (interleaving.after profile (.turn caller part)).called = interleaving.called := by
  apply List.ext_getElem?
  intro place
  by_cases same : caller = place
  · obtain ⟨inside, stage⟩ := List.getElem?_eq_some_iff.mp due
    subst same
    simp [called, after, inside, stage, CallSection.call_nextStage]
  · simp [called, after, List.getElem?_set_ne same]

/-- Calls are not forgotten, so that nobody can have changed the state directly
before if nobody has now. -/
theorem OnlyOperations.of_after {event : Event} (admitted : interleaving.Admits profile event)
    (only : (interleaving.after profile event).OnlyOperations) : interleaving.OnlyOperations := by
  intro call mem
  apply only
  cases event with
  | made other =>
      rw [called_after_made]
      exact List.mem_append_left _ mem
  | turn caller part =>
      rw [called_after_turn admitted.1]
      exact mem

/-- The section of an operation is none of a direct change of state. -/
theorem OnlyOperations.ne_setState (only : interleaving.OnlyOperations) {caller : Nat}
    {part : CallSection} (due : interleaving.calls[caller]? = some part.dueAt)
    (target : AgentState) : part ≠ .setState target := by
  rintro rfl
  obtain ⟨operation, same⟩ :=
    only (.setState target) (List.mem_map.mpr ⟨_, List.mem_of_getElem? due, rfl⟩)
  cases same

theorem OnlyOperations.of_called (operations : List Operation)
    (called : interleaving.called = operations.map Call.operate) :
    interleaving.OnlyOperations := by
  intro call mem
  rw [called] at mem
  obtain ⟨operation, _, same⟩ := List.mem_map.mp mem
  exact ⟨operation, same.symm⟩

theorem getElem?_calls_after_made {place : Nat} {stage : CallStage} (call : Call)
    (known : interleaving.calls[place]? = some stage) :
    (interleaving.after profile (.made call)).calls[place]? = some stage := by
  obtain ⟨inside, _⟩ := List.getElem?_eq_some_iff.mp known
  exact (List.getElem?_append_left inside).trans known

theorem getElem?_calls_after_other {caller place : Nat} (other : caller ≠ place)
    (part : CallSection) :
    (interleaving.after profile (.turn caller part)).calls[place]? =
      interleaving.calls[place]? :=
  List.getElem?_set_ne other

theorem getElem?_calls_after_self {caller : Nat} {part : CallSection}
    (due : interleaving.calls[caller]? = some part.dueAt) :
    (interleaving.after profile (.turn caller part)).calls[caller]? =
      some (part.nextStage interleaving.vitals.state
        (part.carryOut profile interleaving.vitals).result) := by
  obtain ⟨inside, _⟩ := List.getElem?_eq_some_iff.mp due
  exact List.getElem?_set_self inside

end Interleaving

namespace Agent.Run

variable {H : Type} {agent : Agent H} {interleaving : Interleaving}

/-- Turns belong to the call whose place they name. -/
theorem getElem?_called (run : agent.Run interleaving) {turn : Turn}
    (happened : turn ∈ interleaving.history) :
    interleaving.called[turn.caller]? = some turn.part.dueAt.call := by
  induction run with
  | begin => cases happened
  | next run event admitted ih =>
      cases event with
      | made call =>
          have known := ih happened
          obtain ⟨inside, _⟩ := List.getElem?_eq_some_iff.mp known
          rw [Interleaving.called_after_made]
          exact (List.getElem?_append_left inside).trans known
      | turn caller part =>
          rw [Interleaving.called_after_turn admitted.1]
          rcases List.mem_append.mp happened with earlier | now
          · exact ih earlier
          · rw [List.mem_singleton.mp now, Interleaving.called, List.getElem?_map]
            exact congrArg (Option.map CallStage.call) admitted.1

/-- If nobody changes the state directly, no turn does. -/
theorem part_ne_setState (run : agent.Run interleaving) (only : interleaving.OnlyOperations)
    {turn : Turn} (happened : turn ∈ interleaving.history) (target : AgentState) :
    turn.part ≠ .setState target := by
  intro direct
  have called := List.mem_of_getElem? (run.getElem?_called happened)
  obtain ⟨operation, same⟩ := only _ called
  rw [direct] at same
  cases same

end Agent.Run

/-! ## The turns of one call -/

namespace CallStage

/-- The sections behind a call that has not returned. -/
def parts : CallStage → List CallSection
  | setting _ => []
  | atGate _ => []
  | admitted operation => [.gate operation none]
  | commencing operation => [.gate operation none, .inspect operation]
  | inHook operation => [.gate operation none, .inspect operation, .commence operation]
  | settling operation outcome =>
    [.gate operation none, .inspect operation, .commence operation,
      .leaveHook operation outcome]
  | returned _ _ => []

/-- The turns that have led a call to a stage. A call that is getting on has
carried out one section after the other with success, and an operation that has
succeeded either all of them or, where it was complete, the first two. -/
def IsReachedBy (turns : List Turn) : CallStage → Prop
  | returned (.operate operation) (.ok ()) =>
    (∀ turn ∈ turns, turn.outcome.result = .ok ()) ∧
      ((∃ outcome now, turns.map Turn.part =
          (settling operation outcome).parts ++ [.settle operation outcome now]) ∨
        operation = .stop ∧ turns.map Turn.part = (commencing operation).parts)
  | returned _ _ => True
  | stage => (∀ turn ∈ turns, turn.outcome.result = .ok ()) ∧ turns.map Turn.part = stage.parts

end CallStage

theorem Call.isReachedBy_firstStage (call : Call) : call.firstStage.IsReachedBy [] := by
  cases call with
  | setState target => exact ⟨List.forall_mem_nil _, rfl⟩
  | operate operation => exact ⟨List.forall_mem_nil _, rfl⟩

namespace Turn

variable {H : Type} {profile : Profile H} {turn : Turn} {turns : List Turn}

theorem forall_mem_append_singleton {P : Turn → Prop} (earlier : ∀ turn ∈ turns, P turn)
    (now : P turn) : ∀ other ∈ turns ++ [turn], P other := by
  intro other mem
  rcases List.mem_append.mp mem with before | last
  · exact earlier other before
  · rw [List.mem_singleton.mp last]
    exact now

/-- A section leads a call on from the stage at which it is due. -/
theorem isReachedBy_nextStage (happened : turn.outcome = turn.part.carryOut profile turn.before)
    (reached : turn.part.dueAt.IsReachedBy turns) :
    (turn.part.nextStage turn.before.state turn.outcome.result).IsReachedBy (turns ++ [turn]) := by
  cases part : turn.part with
  | setState target => exact trivial
  | gate operation contextError =>
      rw [part] at reached happened
      cases contextError with
      | none =>
          have success : turn.outcome.result = .ok () := by
            rw [happened]
            rfl
          rw [success]
          exact ⟨forall_mem_append_singleton reached.1 success, by simp [reached.2, part]; rfl⟩
      | some error =>
          rw [happened]
          exact trivial
  | inspect operation =>
      rw [part] at reached happened
      have success : turn.outcome.result = .ok () := by
        rw [happened]
        rfl
      have all := forall_mem_append_singleton reached.1 success
      simp only [CallSection.nextStage]
      split
      · next complete =>
          simp only [Operation.isComplete, Bool.and_eq_true, decide_eq_true_eq] at complete
          exact ⟨all, .inr ⟨complete.1, by simp [reached.2, part]; rfl⟩⟩
      · exact ⟨all, by simp [reached.2, part]; rfl⟩
  | commence operation =>
      rw [part] at reached
      cases success : turn.outcome.result with
      | ok _ =>
          exact ⟨forall_mem_append_singleton reached.1 success, by simp [reached.2, part]; rfl⟩
      | error error => exact trivial
  | leaveHook operation outcome =>
      rw [part] at reached happened
      have success : turn.outcome.result = .ok () := by
        rw [happened]
        rfl
      exact ⟨forall_mem_append_singleton reached.1 success, by simp [reached.2, part]; rfl⟩
  | settle operation outcome now =>
      rw [part] at reached
      cases success : turn.outcome.result with
      | ok _ =>
          refine ⟨forall_mem_append_singleton reached.1 success, .inl ⟨outcome, now, ?_⟩⟩
          rw [List.map_append, reached.2, List.map_singleton, part]
          rfl
      | error error => exact trivial

end Turn

namespace Interleaving

variable {H : Type} {profile : Profile H} {interleaving : Interleaving}

/-- The turns of one call, in order. -/
def turnsOf (interleaving : Interleaving) (caller : Nat) : List Turn :=
  interleaving.history.filter fun turn => turn.caller = caller

theorem mem_turnsOf {turn : Turn} {caller : Nat} :
    turn ∈ interleaving.turnsOf caller ↔ turn ∈ interleaving.history ∧ turn.caller = caller := by
  simp [turnsOf, List.mem_filter]

theorem turnsOf_after_self (caller : Nat) (part : CallSection) :
    (interleaving.after profile (.turn caller part)).turnsOf caller =
      interleaving.turnsOf caller ++ [interleaving.turn profile caller part] := by
  simp [turnsOf, after, turn]

theorem turnsOf_after_other {caller place : Nat} (other : caller ≠ place) (part : CallSection) :
    (interleaving.after profile (.turn caller part)).turnsOf place =
      interleaving.turnsOf place := by
  simp [turnsOf, after, turn, other]

end Interleaving

/-- The turns of a call are those that lead to its stage. -/
theorem Agent.Run.isReachedBy {H : Type} {agent : Agent H} {interleaving : Interleaving}
    (run : agent.Run interleaving) {caller : Nat} {stage : CallStage}
    (known : interleaving.calls[caller]? = some stage) :
    stage.IsReachedBy (interleaving.turnsOf caller) := by
  induction run generalizing stage with
  | begin => cases known
  | @next interleaving run event admitted ih =>
      cases event with
      | made call =>
          rcases Nat.lt_or_ge caller interleaving.calls.length with before | after
          · exact ih ((List.getElem?_append_left before).symm.trans known)
          · -- a new call has carried out nothing yet
            have nothing : interleaving.turnsOf caller = [] := by
              rw [Interleaving.turnsOf, List.filter_eq_nil_iff]
              intro turn happened same
              have inside := (List.getElem?_eq_some_iff.mp (run.getElem?_called happened)).1
              rw [of_decide_eq_true same, Interleaving.called, List.length_map] at inside
              exact Nat.not_lt_of_ge after inside
            have first : stage = call.firstStage := by
              change (interleaving.calls ++ [call.firstStage])[caller]? = some stage at known
              rw [List.getElem?_append_right after] at known
              exact List.mem_singleton.mp (List.mem_of_getElem? known)
            change stage.IsReachedBy (interleaving.turnsOf caller)
            rw [nothing, first]
            exact call.isReachedBy_firstStage
      | turn other part =>
          by_cases same : other = caller
          · subst same
            rw [Interleaving.getElem?_calls_after_self admitted.1] at known
            cases known
            rw [Interleaving.turnsOf_after_self]
            exact Turn.isReachedBy_nextStage rfl (ih admitted.1)
          · rw [Interleaving.turnsOf_after_other same]
            exact ih ((Interleaving.getElem?_calls_after_other same part).symm.trans known)

namespace Interleaving

/-! ## Sections in a row -/

/-- An operation is called with a live context and gets to its hook. -/
def opening (caller : Nat) (operation : Operation) : List Event :=
  [.made (.operate operation), .turn caller (.gate operation none),
    .turn caller (.inspect operation), .turn caller (.commence operation)]

/-- A call leaves its hook and settles. -/
def closing (caller : Nat) (operation : Operation) (outcome : HookOutcome) (now : Instant) :
    List Event :=
  [.turn caller (.leaveHook operation outcome), .turn caller (.settle operation outcome now)]

/-- An operation is called and carried out with nobody in between. -/
def undisturbed (caller : Nat) (operation : Operation) (now : Instant) : List Event :=
  opening caller operation ++ closing caller operation (.returned (.ok ())) now

end Interleaving

end AgentKit
