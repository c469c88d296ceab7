/-
# When contexts are done

The deadline of a context is the earliest of those given on the way to it. Once it
has been reached, or once the context has been cancelled, the context is done, and so
is everything that comes from it. Nothing that is done with contexts later changes
this and no deadline that is given later puts it off, so whoever calls an agent with
such a context is refused at the gate.
-/

import AgentKit.Proofs.Agent.Sessions
import AgentKit.Proofs.Context.Cancellation

namespace AgentKit

namespace Context

variable {context descendant : Context} {now later : Int}

/-- The deadline has been reached if one of those in the lineage has. -/
theorem deadlineExceeded_iff :
    context.deadlineExceeded now ↔
      ∃ node ∈ context.lineage, ∃ deadline, node.deadline = some deadline ∧ deadline ≤ now := by
  simp only [deadlineExceeded, Option.any_eq_true, decide_eq_true_eq]
  constructor
  · rintro ⟨earliest, isEarliest, reached⟩
    have mem := (List.min?_eq_some_iff.mp isEarliest).1
    obtain ⟨node, inside, given⟩ := List.mem_filterMap.mp mem
    exact ⟨node, inside, earliest, given, reached⟩
  · rintro ⟨node, inside, deadline, given, reached⟩
    have mem := List.mem_filterMap.mpr ⟨node, inside, given⟩
    cases isEarliest : context.deadline with
    | none => simp [List.min?_eq_none_iff.mp isEarliest] at mem
    | some earliest =>
        have first := (List.min?_eq_some_iff.mp isEarliest).2 deadline mem
        exact ⟨earliest, rfl, Int.le_trans first reached⟩

theorem deadlineExceeded_of_suffix (suffix : context.lineage <:+ descendant.lineage)
    (onwards : now ≤ later) (exceeded : context.deadlineExceeded now) :
    descendant.deadlineExceeded later := by
  obtain ⟨node, mem, deadline, given, reached⟩ := deadlineExceeded_iff.mp exceeded
  exact deadlineExceeded_iff.mpr
    ⟨node, suffix.mem mem, deadline, given, Int.le_trans reached onwards⟩

end Context

namespace Contexts

variable {contexts : Contexts} {context descendant : Context} {now : Int}

theorem isCancelled_of_suffix (suffix : context.lineage <:+ descendant.lineage)
    (cancelled : contexts.isCancelled context) : contexts.isCancelled descendant := by
  simp only [isCancelled, List.any_eq_true] at cancelled ⊢
  obtain ⟨node, mem, known⟩ := cancelled
  exact ⟨node, suffix.mem mem, known⟩

theorem isSome_err_iff :
    (contexts.err context now).isSome ↔
      contexts.isCancelled context ∨ context.deadlineExceeded now := by
  by_cases cancelled : contexts.isCancelled context <;>
    by_cases exceeded : context.deadlineExceeded now <;> simp [err, cancelled, exceeded]

/-- The error of a context that is done tells of its cancellation, and otherwise of
its deadline. -/
theorem err_eq_some_iff {error : Error} :
    contexts.err context now = some error ↔
      contexts.isCancelled context ∧ error = .make .timeout "context canceled" ∨
        ¬ contexts.isCancelled context ∧ context.deadlineExceeded now ∧
          error = .make .timeout "context deadline exceeded" := by
  by_cases cancelled : contexts.isCancelled context <;>
    by_cases exceeded : context.deadlineExceeded now <;>
      simp [err, cancelled, exceeded, eq_comm]

theorem code_of_err {error : Error} (done : contexts.err context now = some error) :
    error.code = .timeout := by
  rcases err_eq_some_iff.mp done with ⟨_, rfl⟩ | ⟨_, _, rfl⟩ <;> rfl

end Contexts

/-- A call with a context that is done gets no further than the gate: it is refused for
the context's error, and nothing has happened. -/
theorem Session.operate_of_err {session : Session} {name : String} {agent : Agent Hook}
    (known : Fields.find? name session.agents = some agent) {context : Context} {cause : Error}
    (done : session.contexts.err context session.monotonicNow = some cause)
    (enter : Hook → Operation → Context → SessionM HookOutcome) (operation : Operation) :
    operate enter name operation context session =
      some (.error (cause.wrapping .timeout
        ("lifecycle: " ++ operation.name ++ " canceled before execution")), session) := by
  unfold operate
  rw [SessionM.bind_eq (agent_eq_some_iff.mpr ⟨known, rfl⟩),
    SessionM.bind_eq (contextError_eq context session), done]
  rfl

namespace ContextHistory

variable {history later : ContextHistory} {place upper lower : Nat}
  {context descendant : Context} {now now' : Int}

/-- A deadline was given to a handle, or to one that governs it. -/
def GivesDeadline (history : ContextHistory) (place : Nat) (deadline : Int) : Prop :=
  ∃ upper handle, history.Governs upper place ∧ history.handles[upper]? = some handle ∧
    handle.origin.deadline? = some deadline

theorem IsSound.deadline_of_original (sound : history.IsSound) {handle : Handle}
    (held : history.handles[place]? = some handle) (own : ¬ handle.origin.IsCopy) :
    handle.context.node.deadline = handle.origin.deadline? := by
  obtain ⟨origin, context⟩ := handle
  have accounts := sound.accounts place _ held
  cases origin with
  | background =>
      obtain ⟨_, rfl⟩ := accounts
      rfl
  | copy source => exact absurd trivial own
  | derived parent derivation =>
      obtain ⟨_, _, _, _, rfl⟩ := accounts
      rfl

/-- The deadlines in the lineage of a context are those given on the way to it. -/
theorem IsSound.mem_deadlines_iff (sound : history.IsSound)
    (held : history.context? place = some context) {deadline : Int} :
    deadline ∈ context.lineage.filterMap (·.deadline) ↔ history.GivesDeadline place deadline := by
  rw [List.mem_filterMap]
  constructor
  · rintro ⟨node, mem, given⟩
    obtain ⟨handle, found, rfl⟩ := exists_handle held
    obtain ⟨upper, above, governs, foundAbove, own, rfl⟩ :=
      sound.exists_governs_of_mem_lineage found mem
    exact ⟨upper, above, governs, foundAbove,
      (sound.deadline_of_original foundAbove own).symm.trans given⟩
  · rintro ⟨upper, handle, governs, found, given⟩
    obtain ⟨above, heldAbove, suffix⟩ := sound.lineage_suffix governs held
    obtain rfl := Option.some.inj ((context?_of_handle found).symm.trans heldAbove)
    have own : ¬ handle.origin.IsCopy := by
      obtain ⟨origin, _⟩ := handle
      cases origin with
      | copy source => cases given
      | background | derived => exact id
    exact ⟨_, suffix.mem List.mem_cons_self,
      (sound.deadline_of_original found own).trans given⟩

/-- The deadline of a context is the earliest of those given on the way to it. -/
theorem IsSound.deadline_eq_some_iff (sound : history.IsSound)
    (held : history.context? place = some context) {deadline : Int} :
    context.deadline = some deadline ↔
      history.GivesDeadline place deadline ∧
        ∀ other, history.GivesDeadline place other → deadline ≤ other := by
  simp only [Context.deadline, List.min?_eq_some_iff, sound.mem_deadlines_iff held]

theorem IsSound.deadline_eq_none_iff (sound : history.IsSound)
    (held : history.context? place = some context) :
    context.deadline = none ↔ ∀ deadline, ¬ history.GivesDeadline place deadline := by
  simp only [Context.deadline, List.min?_eq_none_iff, List.eq_nil_iff_forall_not_mem,
    sound.mem_deadlines_iff held]

/-- Who comes from a context that is done is done, then and ever after. -/
theorem IsSound.isSome_err_of_governs (sound : history.IsSound) (onwards : history.LeadsTo later)
    (heldUpper : history.context? upper = some context)
    (heldLower : later.context? lower = some descendant) (governs : later.Governs upper lower)
    (passed : now ≤ now') (done : (history.contexts.err context now).isSome) :
    (later.contexts.err descendant now').isSome := by
  obtain ⟨above, heldAbove, suffix⟩ := (sound.leadsTo onwards).lineage_suffix governs heldLower
  obtain rfl : above = context :=
    Option.some.inj (heldAbove.symm.trans (onwards.context? heldUpper))
  rw [Contexts.isSome_err_iff] at done ⊢
  rcases done with cancelled | exceeded
  · exact .inl (Contexts.isCancelled_of_suffix suffix (onwards.isCancelled cancelled))
  · exact .inr (Context.deadlineExceeded_of_suffix suffix passed exceeded)

/-- The deadline of a context is the earliest of those given on the way to it, and its
error is that of a cancelled context if it has been cancelled, and otherwise that of a
deadline if that has been reached. Once a context has an error, it and all contexts
that come from it, whenever and with whatever deadlines, have errors from then on. An
operation that is asked for with any of them is refused with a timeout caused by that
error, and leaves the agent, like all else in the session, as it was. -/
theorem done_context_stays_done (possible : history.IsPossible)
    (onwards : history.LeadsTo later) :
    (∀ place context, history.context? place = some context →
        (∀ deadline, context.deadline = some deadline ↔
          history.GivesDeadline place deadline ∧
            ∀ other, history.GivesDeadline place other → deadline ≤ other) ∧
        (context.deadline = none ↔ ∀ deadline, ¬ history.GivesDeadline place deadline) ∧
        ∀ now error, history.contexts.err context now = some error ↔
          (∃ upper ∈ history.cancels, history.Governs upper place) ∧
              error = .make .timeout "context canceled" ∨
            (¬ ∃ upper ∈ history.cancels, history.Governs upper place) ∧
              (∃ deadline, context.deadline = some deadline ∧ deadline ≤ now) ∧
              error = .make .timeout "context deadline exceeded") ∧
      ∀ upper context lower descendant now now', history.context? upper = some context →
        later.context? lower = some descendant → later.Governs upper lower → now ≤ now' →
          (history.contexts.err context now).isSome →
            ∃ cause, later.contexts.err descendant now' = some cause ∧ cause.code = .timeout ∧
              ∀ (session : Session) (name : String) (agent : Agent Hook),
                session.contexts = later.contexts → session.monotonicNow = now' →
                Fields.find? name session.agents = some agent → ∀ enter operation,
                  ∃ refusal, Session.operate enter name operation descendant session =
                      some (.error refusal, session) ∧
                    refusal.code = .timeout ∧ refusal.cause? = some cause := by
  have sound := possible.isSound
  constructor
  · intro place context held
    refine ⟨fun _ => sound.deadline_eq_some_iff held, sound.deadline_eq_none_iff held, ?_⟩
    intro now error
    rw [Contexts.err_eq_some_iff, sound.isCancelled_iff held]
    simp only [Context.deadlineExceeded, Option.any_eq_true, decide_eq_true_eq]
  · intro upper context lower descendant now now' heldUpper heldLower governs passed done
    obtain ⟨cause, isCause⟩ := Option.isSome_iff_exists.mp
      (sound.isSome_err_of_governs onwards heldUpper heldLower governs passed done)
    refine ⟨cause, isCause, Contexts.code_of_err isCause, ?_⟩
    intro session name agent contexts clock known enter operation
    rw [← contexts, ← clock] at isCause
    exact ⟨_, Session.operate_of_err known isCause enter operation, rfl, rfl⟩

end ContextHistory

/-- A context with a deadline. -/
def expiringHistory : ContextHistory :=
  ContextHistory.afterAll {} [.acquire .background, .acquire (.derived 0 (.withDeadline 50))]

/-- When the deadline has passed, someone derives a context with more time. -/
def prolongedHistory : ContextHistory :=
  expiringHistory.afterAll [.acquire (.derived 1 (.withTimeout 60 1000)), .cancel 2]

/-- An agent is there to be called. -/
def callableSession : Session where
  agents :=
    [("a",
      { profile :=
          { id := "agent-001"
            name := "test-agent"
            version := "1.0.0"
            capabilities := []
            hasLogger := true
            hooks := {}
            observers := [] } })]
  contexts := prolongedHistory.contexts
  now := .epoch
  monotonicNow := 70

theorem done_context_stays_done_of_prolongedHistory :
    expiringHistory.IsPossible ∧ expiringHistory.LeadsTo prolongedHistory ∧
      prolongedHistory.Governs 1 2 ∧
      ∃ context descendant, expiringHistory.context? 1 = some context ∧
        prolongedHistory.context? 2 = some descendant ∧ descendant.deadline = some 50 ∧
        expiringHistory.contexts.err context 60 =
          some (.make .timeout "context deadline exceeded") ∧
        ∃ cause, prolongedHistory.contexts.err descendant 70 = some cause ∧ cause.code = .timeout ∧
          ∃ refusal, Session.operate (Session.enterHook 1) "a" .start descendant callableSession =
              some (.error refusal, callableSession) ∧
            refusal.code = .timeout ∧ refusal.cause? = some cause := by
  have possible : expiringHistory.IsPossible := ContextHistory.leadsTo_afterAll _ _
  have onwards : expiringHistory.LeadsTo prolongedHistory := ContextHistory.leadsTo_afterAll _ _
  have governs : prolongedHistory.Governs 1 2 :=
    .single (.inr ⟨_, .withTimeout 60 1000, rfl, rfl⟩)
  obtain ⟨_, stays⟩ := ContextHistory.done_context_stays_done possible onwards
  obtain ⟨cause, isCause, code, refused⟩ :=
    stays 1 _ 2 _ 60 70 rfl rfl governs (by decide) rfl
  exact ⟨possible, onwards, governs, _, _, rfl, rfl, rfl, rfl, cause, isCause, code,
    refused callableSession "a" _ rfl rfl rfl _ .start⟩

end AgentKit
