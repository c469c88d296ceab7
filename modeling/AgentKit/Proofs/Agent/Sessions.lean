/-
# Sessions are interleavings

In a session, calls are made one at a time, and the calls that hooks make run
within the calls they belong to. Seen from one agent, this is one of the ways in
which calls can be interleaved: everything that a session does to an agent is
done by calls that are made one after the other and that have returned when the
session has got its answer, whatever other calls are still under way.

So what holds of all runs holds of agents in sessions too.
-/

import AgentKit.Agent.Builder
import AgentKit.Agent.Session
import AgentKit.Proofs.Agent.Calls

namespace AgentKit

/-! ## One call in the midst of others -/

namespace Agent.Run

variable {H : Type} {origin : Agent H} {interleaving : Interleaving}

theorem exists_made (run : origin.Run interleaving) (call : Call) :
    ∃ later, origin.Run later ∧ later.vitals = interleaving.vitals ∧
      later.calls = interleaving.calls ++ [call.firstStage] :=
  ⟨_, run.next (.made call) trivial, rfl, rfl⟩

/-- A call gets on by a section, and the others stay where they are. -/
theorem exists_turn (run : origin.Run interleaving) (part : CallSection)
    (possible : part.IsPossible origin.profile) {before after : List CallStage}
    (calls : interleaving.calls = before ++ part.dueAt :: after) :
    ∃ later, origin.Run later ∧
      later.vitals = (part.carryOut origin.profile interleaving.vitals).vitals ∧
      later.calls = before ++
        part.nextStage interleaving.vitals.state
          (part.carryOut origin.profile interleaving.vitals).result :: after := by
  have due : interleaving.calls[before.length]? = some part.dueAt := by
    rw [calls, List.getElem?_append_right (Nat.le_refl _), Nat.sub_self]
    rfl
  refine ⟨_, run.next (.turn before.length part) ⟨due, possible⟩, rfl, ?_⟩
  change interleaving.calls.set before.length _ = _
  rw [calls, List.set_append_right _ _ (Nat.le_refl _), Nat.sub_self]
  rfl

theorem exists_admitted (run : origin.Run interleaving) (operation : Operation) :
    ∃ later, origin.Run later ∧ later.vitals = interleaving.vitals ∧
      later.calls = interleaving.calls ++ [.admitted operation] := by
  obtain ⟨made, run, here, calls⟩ := run.exists_made (.operate operation)
  obtain ⟨later, run, vitals, calls⟩ := run.exists_turn (.gate operation none) trivial calls
  exact ⟨later, run, vitals.trans here, calls⟩

theorem exists_commenced (run : origin.Run interleaving) {operation : Operation}
    (incomplete : ¬ operation.isComplete interleaving.vitals.state) :
    let commenced := operation.commence origin.profile interleaving.vitals
    ∃ later, origin.Run later ∧ later.vitals = commenced.vitals ∧
      later.calls = interleaving.calls ++
        [(CallSection.commence operation).nextStage interleaving.vitals.state commenced.result] := by
  obtain ⟨admitted, run, here, calls⟩ := run.exists_admitted operation
  obtain ⟨inspected, run, there, calls⟩ := run.exists_turn (.inspect operation) trivial calls
  have there : inspected.vitals = interleaving.vitals := there.trans here
  rw [here, show (CallSection.inspect operation).nextStage interleaving.vitals.state _ =
    .commencing operation from if_neg incomplete] at calls
  obtain ⟨later, run, vitals, calls⟩ := run.exists_turn (.commence operation) trivial calls
  rw [there] at vitals calls
  exact ⟨later, run, vitals, calls⟩

end Agent.Run

/-! ## Agents between two moments of a session -/

namespace Agent

variable {H : Type} {first second third : Agent H}

/-- An agent has come from one moment to another by calls of which all have
returned. Calls that were under way at the first moment have got no further. -/
def LeadsTo (first second : Agent H) : Prop :=
  second.profile = first.profile ∧
    ∀ (origin : Agent H) (interleaving : Interleaving), origin.profile = first.profile →
      origin.Run interleaving → interleaving.vitals = first.vitals →
      ∃ later new, origin.Run later ∧ later.vitals = second.vitals ∧
        later.calls = interleaving.calls ++ new ∧ ∀ stage ∈ new, stage.HasReturned

/-- An agent has come from one moment to another by a call with a result, and by
those that were made meanwhile. -/
def Performs (first : Agent H) (call : Call) (result : Except Error Unit)
    (second : Agent H) : Prop :=
  second.profile = first.profile ∧
    ∀ (origin : Agent H) (interleaving : Interleaving), origin.profile = first.profile →
      origin.Run interleaving → interleaving.vitals = first.vitals →
      ∃ later new, origin.Run later ∧ later.vitals = second.vitals ∧
        later.calls = interleaving.calls ++ .returned call result :: new ∧
        ∀ stage ∈ new, stage.HasReturned

theorem LeadsTo.refl (agent : Agent H) : agent.LeadsTo agent := by
  refine ⟨rfl, ?_⟩
  intro origin interleaving _ run here
  exact ⟨interleaving, [], run, here, (List.append_nil _).symm, List.forall_mem_nil _⟩

theorem LeadsTo.trans (early : first.LeadsTo second) (late : second.LeadsTo third) :
    first.LeadsTo third := by
  refine ⟨late.1.trans early.1, ?_⟩
  intro origin interleaving profile run here
  obtain ⟨middle, early', run, here, calls, returned⟩ := early.2 origin interleaving profile run here
  obtain ⟨later, late', run, here, calls', returned'⟩ :=
    late.2 origin middle (profile.trans early.1.symm) run here
  refine ⟨later, early' ++ late', run, here, ?_, ?_⟩
  · rw [calls', calls, List.append_assoc]
  · intro stage mem
    rcases List.mem_append.mp mem with before | after
    · exact returned stage before
    · exact returned' stage after

theorem Performs.leadsTo {call : Call} {result : Except Error Unit}
    (performs : first.Performs call result second) : first.LeadsTo second := by
  refine ⟨performs.1, ?_⟩
  intro origin interleaving profile run here
  obtain ⟨later, new, run, here, calls, returned⟩ := performs.2 origin interleaving profile run here
  refine ⟨later, _, run, here, calls, ?_⟩
  intro stage mem
  rcases List.mem_cons.mp mem with rfl | other
  · exact trivial
  · exact returned stage other

theorem performs_setState (agent : Agent H) (target : AgentState) :
    agent.Performs (.setState target) (agent.profile.setState agent.vitals target).result
      { agent with vitals := (agent.profile.setState agent.vitals target).vitals } := by
  refine ⟨rfl, ?_⟩
  intro origin interleaving profile run here
  obtain ⟨made, run, here', calls⟩ := run.exists_made (.setState target)
  obtain ⟨later, run, vitals, calls⟩ := run.exists_turn (.setState target) trivial calls
  rw [here', here, profile] at vitals calls
  exact ⟨later, [], run, vitals, calls, List.forall_mem_nil _⟩

variable {operation : Operation}

theorem performs_refused (agent : Agent H) {contextError : Option Error} {refusal : Error}
    (refused : operation.refusal? contextError = some refusal) :
    agent.Performs (.operate operation) (.error refusal) agent := by
  refine ⟨rfl, ?_⟩
  intro origin interleaving profile run here
  obtain ⟨made, run, there, calls⟩ := run.exists_made (.operate operation)
  obtain ⟨later, run, vitals, calls⟩ := run.exists_turn (.gate operation contextError) trivial calls
  simp only [CallSection.carryOut, refused, there, here] at vitals calls
  exact ⟨later, [], run, vitals, calls, List.forall_mem_nil _⟩

theorem performs_complete (agent : Agent H) (complete : operation.isComplete agent.state) :
    agent.Performs (.operate operation) (.ok ()) agent := by
  refine ⟨rfl, ?_⟩
  intro origin interleaving profile run here
  obtain ⟨admitted, run, there, calls⟩ := run.exists_admitted operation
  obtain ⟨later, run, vitals, calls⟩ := run.exists_turn (.inspect operation) trivial calls
  rw [there, here, show (CallSection.inspect operation).nextStage agent.vitals.state _ =
    .returned (.operate operation) (.ok ()) from if_pos complete] at calls
  exact ⟨later, [], run, vitals.trans (there.trans here), calls, List.forall_mem_nil _⟩

theorem performs_uncommenced (agent : Agent H) (incomplete : ¬ operation.isComplete agent.state)
    {error : Error}
    (failed : (operation.commence agent.profile agent.vitals).result = .error error) :
    agent.Performs (.operate operation) (.error error)
      { agent with vitals := (operation.commence agent.profile agent.vitals).vitals } := by
  refine ⟨rfl, ?_⟩
  intro origin interleaving profile run here
  rw [← here] at failed ⊢
  rw [← profile] at failed ⊢
  have incomplete : ¬ operation.isComplete interleaving.vitals.state := by
    rw [here]
    exact incomplete
  obtain ⟨later, run, vitals, calls⟩ := run.exists_commenced incomplete
  rw [failed] at calls
  exact ⟨later, [], run, vitals, calls, List.forall_mem_nil _⟩

/-- The hook of an operation runs between two moments, and all calls that it
makes return before it is left. -/
theorem performs_settled (incomplete : ¬ operation.isComplete first.state)
    (succeeded : (operation.commence first.profile first.vitals).result = .ok ())
    (meanwhile : LeadsTo
      { first with vitals := (operation.commence first.profile first.vitals).vitals } second)
    {outcome : HookOutcome}
    (possible : first.profile.hooks.get operation = none → outcome = .returned (.ok ()))
    (now : Instant) :
    first.Performs (.operate operation)
      (operation.settle second.profile second.vitals now outcome).result
      { second with
        vitals := (operation.settle second.profile second.vitals now outcome).vitals } := by
  refine ⟨meanwhile.1, ?_⟩
  intro origin interleaving profile run here
  rw [← here] at succeeded
  rw [← profile] at succeeded possible
  have incomplete : ¬ operation.isComplete interleaving.vitals.state := by
    rw [here]
    exact incomplete
  obtain ⟨commenced, run, vitals, calls⟩ := run.exists_commenced incomplete
  rw [succeeded] at calls
  rw [profile, here] at vitals
  obtain ⟨left, new, run, vitals, calls', returned⟩ :=
    meanwhile.2 origin commenced profile run vitals
  have calls' : left.calls = interleaving.calls ++ .inHook operation :: new := by
    rw [calls', calls, List.append_assoc]
    rfl
  obtain ⟨settling, run, vitals', calls'⟩ :=
    run.exists_turn (.leaveHook operation outcome) possible calls'
  obtain ⟨later, run, vitals'', calls''⟩ :=
    run.exists_turn (.settle operation outcome now) trivial calls'
  have same : origin.profile = second.profile := profile.trans meanwhile.1.symm
  have there : settling.vitals = second.vitals := vitals'.trans vitals
  rw [there, same] at vitals'' calls''
  exact ⟨later, new, run, vitals'', calls'', returned⟩

end Agent

/-! ## Activities in a session -/

/-- Every agent has come from one moment of a session to another by calls. -/
def Session.LeadsTo (first second : Session) : Prop :=
  ∀ name agent, Fields.find? name first.agents = some agent →
    ∃ later, Fields.find? name second.agents = some later ∧ agent.LeadsTo later

namespace Session.LeadsTo

variable {first second third : Session}

theorem of_agents_eq (same : second.agents = first.agents) : first.LeadsTo second := by
  intro name agent found
  refine ⟨agent, ?_, .refl agent⟩
  rw [same]
  exact found

theorem trans (early : first.LeadsTo second) (late : second.LeadsTo third) :
    first.LeadsTo third := by
  intro name agent found
  obtain ⟨middle, found, before⟩ := early name agent found
  obtain ⟨later, found, after⟩ := late name middle found
  exact ⟨later, found, before.trans after⟩

/-- Only the agent with a name has come on. -/
theorem of_insert {name : String} {before after : Agent Hook}
    (found : Fields.find? name first.agents = some before) (leadsTo : before.LeadsTo after)
    (agents : second.agents = Fields.insert name after first.agents) : first.LeadsTo second := by
  intro other agent known
  by_cases same : name = other
  · subst same
    rw [found] at known
    cases known
    exact ⟨after, by rw [agents, Fields.find?_insert_self], leadsTo⟩
  · exact ⟨agent, by rw [agents, Fields.find?_insert_of_ne same, known], .refl agent⟩

end Session.LeadsTo

namespace SessionM

variable {α β : Type}

/-- What the activity does to agents, calls could have done. -/
def IsFaithful (activity : SessionM α) : Prop :=
  ∀ session result after, activity session = some (result, after) → session.LeadsTo after

/-- An activity in two steps has an outcome only if both of them have. -/
theorem exists_of_bind {activity : SessionM α} {next : α → SessionM β} {session after : Session}
    {result : β} (done : (activity >>= next) session = some (result, after)) :
    ∃ value middle, activity session = some (value, middle) ∧
      next value middle = some (result, after) := by
  obtain ⟨⟨value, middle⟩, here, there⟩ := Option.bind_eq_some_iff.mp done
  exact ⟨value, middle, here, there⟩

/-- An activity in two steps does the second step with what the first one has come to. -/
theorem bind_eq {activity : SessionM α} {next : α → SessionM β} {session middle : Session}
    {value : α} (done : activity session = some (value, middle)) :
    (activity >>= next) session = next value middle := by
  change activity session >>= _ = _
  rw [done]
  rfl

theorem IsFaithful.bind {activity : SessionM α} {next : α → SessionM β}
    (faithful : activity.IsFaithful) (rest : ∀ value, (next value).IsFaithful) :
    (activity >>= next).IsFaithful := by
  intro session result after done
  obtain ⟨value, middle, here, there⟩ := exists_of_bind done
  exact (faithful session value middle here).trans (rest value middle result after there)

theorem IsFaithful.pure (value : α) : IsFaithful (pure value : SessionM α) := by
  intro session result after done
  cases done
  exact .of_agents_eq rfl

theorem IsFaithful.get : IsFaithful (get : SessionM Session) := by
  intro session result after done
  cases done
  exact .of_agents_eq rfl

theorem IsFaithful.modify (change : Session → Session)
    (same : ∀ session, (change session).agents = session.agents) :
    IsFaithful (modify change : SessionM Unit) := by
  intro session result after done
  cases done
  exact .of_agents_eq (same session)

end SessionM

namespace Session

open SessionM

variable {session after : Session}

theorem agent_eq_some_iff {name : String} {found : Agent Hook} :
    agent name session = some (found, after) ↔
      Fields.find? name session.agents = some found ∧ after = session := by
  change (Fields.find? name session.agents >>= fun value => some (value, session)) = _ ↔ _
  cases Fields.find? name session.agents <;> simp [eq_comm]

theorem isFaithful_agent (name : String) : (agent name).IsFaithful := by
  intro session found after done
  exact .of_agents_eq (congrArg agents (agent_eq_some_iff.mp done).2)

theorem context_eq_some_iff {name : String} {found : Context} :
    context name session = some (found, after) ↔
      Fields.find? name session.contextNames = some found ∧ after = session := by
  change (Fields.find? name session.contextNames >>= fun value => some (value, session)) = _ ↔ _
  cases Fields.find? name session.contextNames <;> simp [eq_comm]

theorem isFaithful_context (name : String) : (context name).IsFaithful := by
  intro session found after done
  exact .of_agents_eq (congrArg agents (context_eq_some_iff.mp done).2)

theorem contextError_eq (context : Context) (session : Session) :
    contextError context session =
      some (session.contexts.err context session.monotonicNow, session) := rfl

theorem isFaithful_contextError (context : Context) : (contextError context).IsFaithful := by
  intro session error after done
  cases done
  exact .of_agents_eq rfl

theorem isFaithful_write (event : SessionEvent) : (write event).IsFaithful :=
  .modify _ fun _ => rfl

theorem isFaithful_cancel (name : String) : (cancel name).IsFaithful :=
  (isFaithful_context name).bind fun _ => .modify _ fun _ => rfl

theorem forM_write (notices : List Notice) (session : Session) :
    (notices.forM fun notice => write (.noticed notice)) session =
      some ((), { session with
        reversedEvents := (notices.map .noticed).reverse ++ session.reversedEvents }) := by
  induction notices generalizing session with
  | nil => rfl
  | cons notice notices ih =>
      refine (ih _).trans ?_
      simp

/-- The session after a section of an agent. Its notices are the last events. -/
def afterSection (session : Session) (name : String) (agent : Agent Hook)
    (locked : LockedSection) : Session :=
  { session.addAgent name { agent with vitals := locked.vitals } with
    reversedEvents := (locked.notices.map .noticed).reverse ++ session.reversedEvents }

@[simp]
theorem find?_afterSection_self (session : Session) (name : String) (agent : Agent Hook)
    (locked : LockedSection) :
    Fields.find? name (session.afterSection name agent locked).agents =
      some { agent with vitals := locked.vitals } :=
  Fields.find?_insert_self ..

theorem events_afterSection (session : Session) (name : String) (agent : Agent Hook)
    (locked : LockedSection) :
    (session.afterSection name agent locked).events =
      session.events ++ locked.notices.map .noticed := by
  simp [afterSection, events]

/-- A locked section always takes effect. -/
theorem perform_eq (name : String) (agent : Agent Hook) (locked : LockedSection)
    (session : Session) :
    perform name agent locked session =
      some (locked.result, session.afterSection name agent locked) := by
  change (do
    let value ← (locked.notices.forM fun notice => write (.noticed notice))
      (session.addAgent name { agent with vitals := locked.vitals })
    some (locked.result, value.2)) = _
  rw [forM_write]
  rfl

/-- A section changes the vitals of its agent and nothing else of the agents. -/
theorem of_perform {name : String} {agent : Agent Hook} {locked : LockedSection}
    {result : Except Error Unit}
    (done : perform name agent locked session = some (result, after)) :
    result = locked.result ∧
      after.agents = Fields.insert name { agent with vitals := locked.vitals } session.agents := by
  rw [perform_eq] at done
  cases done
  exact ⟨rfl, rfl⟩

/-- A direct change of state is a call that changes the agent's state
directly. -/
theorem performs_of_setState {name : String} {target : AgentState} {result : Except Error Unit}
    (done : setState name target session = some (result, after)) :
    ∃ before later, Fields.find? name session.agents = some before ∧
      after.agents = Fields.insert name later session.agents ∧
      before.Performs (.setState target) result later := by
  obtain ⟨before, middle, looked, rest⟩ := exists_of_bind done
  obtain ⟨found, rfl⟩ := agent_eq_some_iff.mp looked
  obtain ⟨rfl, agents⟩ := of_perform rest
  exact ⟨before, _, found, agents, before.performs_setState target⟩

theorem isFaithful_setState (name : String) (target : AgentState) :
    (setState name target).IsFaithful := by
  intro session result after done
  obtain ⟨before, later, found, agents, performs⟩ := performs_of_setState done
  exact .of_insert found performs.leadsTo agents

theorem isFaithful_countWins (name : String) (target : AgentState) (callers : Nat) :
    (countWins name target callers).IsFaithful := by
  induction callers with
  | zero => exact .pure 0
  | succ callers ih =>
      refine (isFaithful_setState name target).bind fun result => ?_
      cases result with
      | ok _ => exact ih.bind fun wins => .pure (wins + 1)
      | error _ => exact ih

variable {enter : Hook → Operation → Context → SessionM HookOutcome}

/-- Settles a call whose hook has ended in some way. -/
def settlement (name : String) (operation : Operation) (outcome : HookOutcome) :
    SessionM (Except Error Unit) := do
  let after ← agent name
  perform name after (operation.settle after.profile after.vitals (← get).now outcome)

/-- An operation settles when its hook has been left, and has been one call from
its beginning on. -/
theorem performs_of_settling {name : String} {operation : Operation} {before : Agent Hook}
    {commenced left : Session} (found : Fields.find? name session.agents = some before)
    (incomplete : ¬ operation.isComplete before.state)
    (succeeded : (operation.commence before.profile before.vitals).result = .ok ())
    (agents : commenced.agents = Fields.insert name
      { before with vitals := (operation.commence before.profile before.vitals).vitals }
      session.agents)
    (meanwhile : commenced.LeadsTo left) {outcome : HookOutcome}
    (possible : before.profile.hooks.get operation = none → outcome = .returned (.ok ()))
    {result : Except Error Unit}
    (settled : settlement name operation outcome left = some (result, after)) :
    session.LeadsTo after ∧
      ∃ before later, Fields.find? name session.agents = some before ∧
        Fields.find? name after.agents = some later ∧
        before.Performs (.operate operation) result later := by
  obtain ⟨agent, middle, looked, performed⟩ := exists_of_bind settled
  obtain ⟨known, rfl⟩ := agent_eq_some_iff.mp looked
  obtain ⟨rfl, agents'⟩ := of_perform performed
  obtain ⟨_, known', leadsTo⟩ := meanwhile name _ (by rw [agents, Fields.find?_insert_self])
  rw [known] at known'
  cases known'
  have performs := before.performs_settled incomplete succeeded leadsTo possible middle.now
  refine ⟨?_, before, _, found, by rw [agents', Fields.find?_insert_self], performs⟩
  intro other stranger present
  by_cases same : name = other
  · subst same
    rw [found] at present
    cases present
    exact ⟨_, by rw [agents', Fields.find?_insert_self], performs.leadsTo⟩
  · obtain ⟨later, there, reached⟩ :=
      meanwhile other stranger (by rw [agents, Fields.find?_insert_of_ne same, present])
    exact ⟨later, by rw [agents', Fields.find?_insert_of_ne same, there], reached⟩

/-- An operation in a session is a call of that operation, with the same result,
provided that hooks do to agents only what calls can do. -/
theorem performs_of_operate
    (faithful : ∀ hook operation context, (enter hook operation context).IsFaithful)
    {name : String} {operation : Operation} {context : Context} {result : Except Error Unit}
    (done : operate enter name operation context session = some (result, after)) :
    session.LeadsTo after ∧
      ∃ before later, Fields.find? name session.agents = some before ∧
        Fields.find? name after.agents = some later ∧
        before.Performs (.operate operation) result later := by
  obtain ⟨before, middle, looked, rest⟩ := exists_of_bind done
  obtain ⟨found, rfl⟩ := agent_eq_some_iff.mp looked
  obtain ⟨contextError, _, asked, rest⟩ := exists_of_bind rest
  cases asked
  cases refused : operation.refusal? (middle.contexts.err context middle.monotonicNow) with
  | some refusal =>
      simp only [refused] at rest
      cases rest
      exact ⟨.of_agents_eq rfl, before, before, found, found, before.performs_refused refused⟩
  | none =>
      simp only [refused] at rest
      by_cases complete : operation.isComplete before.state
      · rw [if_pos complete] at rest
        cases rest
        exact ⟨.of_agents_eq rfl, before, before, found, found, before.performs_complete complete⟩
      · rw [if_neg complete] at rest
        obtain ⟨result, _, commenced, rest⟩ := exists_of_bind rest
        obtain ⟨rfl, agents⟩ := of_perform commenced
        cases began : (operation.commence before.profile before.vitals).result with
        | error error =>
            simp only [began] at rest
            cases rest
            have performs := before.performs_uncommenced complete began
            exact ⟨.of_insert found performs.leadsTo agents, before, _, found,
              by rw [agents, Fields.find?_insert_self], performs⟩
        | ok _ =>
            simp only [began] at rest
            cases registered : before.profile.hooks.get operation with
            | some hook =>
                simp only [registered] at rest
                obtain ⟨outcome, left, entered, settled⟩ := exists_of_bind rest
                exact performs_of_settling found complete began agents
                  (faithful hook operation context _ _ _ entered)
                  (fun absent => nomatch registered.symm.trans absent) settled
            | none =>
                simp only [registered] at rest
                obtain ⟨outcome, left, returned, settled⟩ := exists_of_bind rest
                cases returned
                exact performs_of_settling found complete began agents (.of_agents_eq rfl)
                  (fun _ => rfl) settled

theorem isFaithful_operate
    (faithful : ∀ hook operation context, (enter hook operation context).IsFaithful)
    (name : String) (operation : Operation) (context : Context) :
    (operate enter name operation context).IsFaithful :=
  fun _ _ _ done => (performs_of_operate faithful done).1

theorem isFaithful_answerWith
    (faithful : ∀ hook operation context, (enter hook operation context).IsFaithful)
    (request : Request) : (answerWith enter request).IsFaithful := by
  cases request with
  | operate name operation contextName =>
      refine (isFaithful_context contextName).bind fun context => ?_
      exact (isFaithful_operate faithful name operation context).bind fun result => .pure _
  | setState name target =>
      exact (isFaithful_setState name target).bind fun result => .pure _
  | health name => exact (isFaithful_agent name).bind fun agent => .pure _
  | state name => exact (isFaithful_agent name).bind fun agent => .pure _
  | info name =>
      exact (isFaithful_agent name).bind fun agent => IsFaithful.get.bind fun session => .pure _
  | identity name => exact (isFaithful_agent name).bind fun agent => .pure _
  | capabilities name => exact (isFaithful_agent name).bind fun agent => .pure _
  | race name callers target =>
      exact (isFaithful_countWins name target callers).bind fun wins => .pure _

/-- A hook's program does to agents what its requests do. -/
theorem isFaithful_runProgram {answer : Request → SessionM Reply}
    (faithful : ∀ request, (answer request).IsFaithful) (context : Context) (program : Program) :
    (runProgram answer context program).IsFaithful := by
  induction program with
  | finish outcome => exact .pure outcome
  | cancel name next ih => exact (isFaithful_cancel name).bind fun _ => ih
  | look next ih => exact (isFaithful_contextError context).bind fun error => ih error
  | ask request next ih =>
      refine (faithful request).bind fun reply => ?_
      exact (isFaithful_write _).bind fun _ => ih reply

/-- Hooks do to agents what calls can do, however deep they nest. -/
theorem isFaithful_enterHook (depth : Nat) (hook : Hook) (operation : Operation)
    (context : Context) : (enterHook depth hook operation context).IsFaithful := by
  induction depth generalizing hook operation context with
  | zero =>
      intro session result after done
      cases done
  | succ depth ih =>
      unfold enterHook
      refine IsFaithful.get.bind fun session => ?_
      dsimp only
      refine IsFaithful.bind (.modify _ fun _ => rfl) fun _ => ?_
      refine (isFaithful_agent hook.owner).bind fun owner => ?_
      refine (isFaithful_contextError context).bind fun error => ?_
      refine (isFaithful_write _).bind fun _ => ?_
      exact isFaithful_runProgram (isFaithful_answerWith ih) context _

variable {depth : Nat}

/-- An operation that is asked for from outside is a call with the same result,
and all that its hook does is done by calls too, which have returned with it. -/
theorem performs_of_answer_operate {name contextName : String} {operation : Operation}
    {reply : Reply} (answered : answerWith (enterHook depth)
      (.operate name operation contextName) session = some (reply, after)) :
    ∃ before later result, reply = .done result ∧
      Fields.find? name session.agents = some before ∧
      Fields.find? name after.agents = some later ∧
      before.Performs (.operate operation) result later := by
  obtain ⟨context, _, looked, rest⟩ := exists_of_bind answered
  obtain ⟨_, rfl⟩ := context_eq_some_iff.mp looked
  obtain ⟨result, _, operated, rest⟩ := exists_of_bind rest
  cases rest
  obtain ⟨_, before, later, found, known, performs⟩ :=
    performs_of_operate (isFaithful_enterHook depth) operated
  exact ⟨before, later, result, rfl, found, known, performs⟩

theorem isFaithful_answer (depth : Nat) (request : Request) :
    (answerWith (enterHook depth) request).IsFaithful :=
  isFaithful_answerWith (isFaithful_enterHook depth) request

theorem isFaithful_mapM_answer (depth : Nat) (requests : List Request) :
    (requests.mapM (answerWith (enterHook depth))).IsFaithful := by
  induction requests with
  | nil => exact .pure []
  | cons request requests ih =>
      rw [List.mapM_cons]
      exact (isFaithful_answer depth request).bind fun reply =>
        ih.bind fun replies => .pure _

/-- Whatever has been asked one after the other, with hooks that nest as deep as they may,
each agent has then been through a run in which all calls have returned. -/
theorem exists_run_of_answers {requests : List Request} {replies : List Reply}
    (answered : requests.mapM (answerWith (enterHook depth)) session = some (replies, after))
    {name : String} {agent : Agent Hook} (found : Fields.find? name session.agents = some agent) :
    ∃ later interleaving, Fields.find? name after.agents = some later ∧
      later.profile = agent.profile ∧ agent.Run interleaving ∧
      interleaving.vitals = later.vitals ∧ ∀ stage ∈ interleaving.calls, stage.HasReturned := by
  obtain ⟨later, known, profile, calls⟩ :=
    isFaithful_mapM_answer depth requests session replies after answered name agent found
  obtain ⟨interleaving, new, run, vitals, all, returned⟩ := calls agent _ rfl .begin rfl
  refine ⟨later, interleaving, known, profile, run, vitals, ?_⟩
  rw [all]
  exact returned

end Session

end AgentKit
