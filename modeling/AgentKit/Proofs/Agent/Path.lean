/-
# The path of an agent

The states of an agent form a path in the table of states, however its calls are
interleaved: each section finds the vitals that the one before it has left, and
changes the state at most by one move of the table. Observers are told of this
path and of nothing else, each of them of all of it.

Which calls are made, how their hooks end and how observers react is free. Where
a section is refused its move, nothing has happened.
-/

import AgentKit.Agent.Builder
import AgentKit.Proofs.Agent.Sections

namespace AgentKit

/-! ## Paths in the table of states -/

namespace AgentState

/-- Changes that lead from one state to another by moves of the table. -/
def IsPath : AgentState → List (AgentState × AgentState) → AgentState → Prop
  | source, [], target => source = target
  | source, change :: changes, target =>
    change.1 = source ∧ source.canMoveTo change.2 ∧ change.2.IsPath changes target

theorem IsPath.append {source middle target : AgentState}
    {first second : List (AgentState × AgentState)} (path : source.IsPath first middle)
    (rest : middle.IsPath second target) : source.IsPath (first ++ second) target := by
  induction first generalizing source with
  | nil =>
      rw [show source = middle from path]
      exact rest
  | cons change changes ih => exact ⟨path.1, path.2.1, ih path.2.2⟩

/-- A path leads to the target of its last change. -/
theorem IsPath.eq_getLast? {source target : AgentState}
    {changes : List (AgentState × AgentState)} (path : source.IsPath changes target) :
    target = (changes.getLast?.map Prod.snd).getD source := by
  induction changes generalizing source with
  | nil => exact Eq.symm path
  | cons change changes ih =>
      rw [ih path.2.2]
      cases changes with
      | nil => rfl
      | cons next rest =>
          have last : (next :: rest).getLast? = some _ :=
            List.getLast?_eq_some_getLast (List.cons_ne_nil next rest)
          simp [List.getLast?_cons_cons, last]

/-- Paths between the listed states stay among them. -/
theorem IsPath.mem_all {source target : AgentState}
    {changes : List (AgentState × AgentState)} (path : source.IsPath changes target)
    (listed : source ∈ all) : target ∈ all := by
  induction changes generalizing source with
  | nil =>
      rw [← show source = target from path]
      exact listed
  | cons change changes ih => exact ih path.2.2 (mem_all_of_canMoveTo path.2.1)

end AgentState

/-! ## Linked turns -/

namespace Turn

/-- Turns that follow each other without a gap and lead from some vitals to
others. -/
def Linked : Vitals → List Turn → Vitals → Prop
  | first, [], last => first = last
  | first, turn :: turns, last => turn.before = first ∧ Linked turn.outcome.vitals turns last

theorem linked_append {first last : Vitals} {earlier later : List Turn} :
    Linked first (earlier ++ later) last ↔
      ∃ middle, Linked first earlier middle ∧ Linked middle later last := by
  induction earlier generalizing first with
  | nil => simp [Linked]
  | cons turn turns ih => simp [Linked, ih, and_assoc]

/-- What holds of the first vitals and is kept by every turn holds all along. -/
theorem Linked.keeps {first last : Vitals} {turns : List Turn} (linked : Linked first turns last)
    {P : Vitals → Prop} (begin : P first)
    (keep : ∀ turn ∈ turns, P turn.before → P turn.outcome.vitals) :
    P last ∧ ∀ turn ∈ turns, P turn.before ∧ P turn.outcome.vitals := by
  induction turns generalizing first with
  | nil =>
      have same : first = last := linked
      exact ⟨same ▸ begin, List.forall_mem_nil _⟩
  | cons turn turns ih =>
      obtain ⟨rfl, rest⟩ := linked
      have here := keep turn List.mem_cons_self begin
      obtain ⟨atLast, later⟩ := ih rest here fun next mem => keep next (List.mem_cons_of_mem _ mem)
      refine ⟨atLast, ?_⟩
      intro next mem
      rcases List.mem_cons.mp mem with rfl | mem
      · exact ⟨begin, here⟩
      · exact later next mem

/-- The changes of state in a number of turns. -/
def changes (turns : List Turn) : List (AgentState × AgentState) :=
  turns.filterMap change?

variable {H : Type} {profile : Profile H}

/-- What a turn changes, if anything, is one move of the table. -/
theorem isPath_change? {turn : Turn}
    (fulfils : turn.outcome.Fulfils profile turn.before turn.part.attempt?) :
    turn.before.state.IsPath turn.change?.toList turn.outcome.vitals.state := by
  by_cases same : turn.before.state = turn.outcome.vitals.state
  · simp only [change?, AgentState.change?, same, if_true]
    exact rfl
  · have possible : turn.before.state.canMoveTo turn.outcome.vitals.state := by
      have changed := fulfils.change?_eq
      simp only [AgentState.change?, same, if_false] at changed
      obtain ⟨asked, _, found⟩ := Option.bind_eq_some_iff.mp changed.symm
      by_cases allowed : turn.before.state.canMoveTo asked.1
      · have reached : asked.1 = turn.outcome.vitals.state := by
          simpa [allowed] using found
        exact reached ▸ allowed
      · simp [allowed] at found
    simp [change?, AgentState.change?, same, AgentState.IsPath, possible]

/-- Linked turns take the agent along a path. -/
theorem Linked.isPath {first last : Vitals} {turns : List Turn} (linked : Linked first turns last)
    (fulfil : ∀ turn ∈ turns, turn.outcome.Fulfils profile turn.before turn.part.attempt?) :
    first.state.IsPath (changes turns) last.state := by
  induction turns generalizing first with
  | nil => exact congrArg Vitals.state linked
  | cons turn turns ih =>
      obtain ⟨rfl, rest⟩ := linked
      have step := isPath_change? (fulfil turn List.mem_cons_self)
      have tail := ih rest fun later mem => fulfil later (List.mem_cons_of_mem turn mem)
      have both := step.append tail
      cases changed : turn.change? <;> simpa [changes, changed] using both

end Turn

namespace Interleaving

/-- The changes of state so far, in order. -/
def changes (interleaving : Interleaving) : List (AgentState × AgentState) :=
  Turn.changes interleaving.history

/-- The calls of observers so far, in order. -/
def tellings (interleaving : Interleaving) : List (String × AgentState × AgentState) :=
  interleaving.history.flatMap fun turn => turn.outcome.tellings

/-- What the observers with a label have been told so far. -/
def heardBy (interleaving : Interleaving) (label : String) : List (AgentState × AgentState) :=
  (interleaving.tellings.filter fun telling => telling.1 = label).map Prod.snd

end Interleaving

/-- Where observers can be told apart, each hears of a change once. -/
theorem Profile.filter_tellingsOf {H : Type} {profile : Profile H} {observer : Observer}
    (present : observer ∈ profile.audience) (distinct : (profile.audience.map Observer.label).Nodup)
    (change : AgentState × AgentState) :
    (profile.tellingsOf change).filter (fun telling => telling.1 = observer.label) =
      [(observer.label, change)] := by
  unfold tellingsOf
  generalize profile.audience = audience at present distinct
  induction audience with
  | nil => cases present
  | cons first rest ih =>
      obtain ⟨fresh, distinct⟩ := List.nodup_cons.mp distinct
      have nobody : ∀ label, label ∉ rest.map Observer.label →
          (rest.map fun other => (other.label, change)).filter
            (fun telling => telling.1 = label) = [] := by
        intro label absent
        simp only [List.filter_eq_nil_iff, List.mem_map, decide_eq_true_eq]
        rintro _ ⟨other, mem, rfl⟩ same
        exact absent (List.mem_map.mpr ⟨other, mem, same⟩)
      rcases List.mem_cons.mp present with rfl | later
      · simp [nobody _ fresh]
      · have other : first.label ≠ observer.label := by
          intro same
          exact fresh (List.mem_map.mpr ⟨observer, later, same.symm⟩)
        simpa [other] using ih later distinct

namespace Agent.Run

variable {H : Type} {agent : Agent H} {interleaving : Interleaving}

theorem linked (run : agent.Run interleaving) :
    Turn.Linked agent.vitals interleaving.history interleaving.vitals := by
  induction run with
  | begin => rfl
  | next run event admitted ih =>
      cases event with
      | made call => exact ih
      | turn caller part => exact Turn.linked_append.mpr ⟨_, ih, rfl, rfl⟩

/-- The state is where the changes so far lead to. -/
theorem isPath (run : agent.Run interleaving) :
    agent.vitals.state.IsPath interleaving.changes interleaving.vitals.state :=
  run.linked.isPath fun _ happened => run.fulfils happened

/-- All who are there are told of every change, and there is nothing else that
observers are called for. -/
theorem tellings_eq (run : agent.Run interleaving) :
    interleaving.tellings = interleaving.changes.flatMap agent.profile.tellingsOf := by
  have each : ∀ turns : List Turn, (∀ turn ∈ turns, turn ∈ interleaving.history) →
      (turns.flatMap fun turn => turn.outcome.tellings) =
        (Turn.changes turns).flatMap agent.profile.tellingsOf := by
    intro turns happened
    induction turns with
    | nil => rfl
    | cons turn turns ih =>
        have told := (run.fulfils (happened turn List.mem_cons_self)).tellings_eq
        rw [List.flatMap_cons, told, ih fun later mem => happened later (List.mem_cons_of_mem _ mem)]
        change (turn.change?).elim [] _ ++ _ = _
        cases changed : turn.change? <;> simp [Turn.changes, changed]
  exact each interleaving.history fun _ happened => happened

theorem heardBy_eq (run : agent.Run interleaving) {observer : Observer}
    (present : observer ∈ agent.profile.audience)
    (distinct : (agent.profile.audience.map Observer.label).Nodup) :
    interleaving.heardBy observer.label = interleaving.changes := by
  unfold Interleaving.heardBy
  rw [run.tellings_eq, List.filter_flatMap]
  simp [Profile.filter_tellingsOf present distinct, List.map_flatMap]

end Agent.Run

/-! ## Sections in the account of the path -/

/-- What a turn contributes to the path: the move it asks for if the table has
it, and nothing otherwise. A section that is refused its move leaves the vitals
as they were; a section that asks for none does so too. The result tells which
of these it was, unless the failure of a hook is to be told. -/
def Turn.IsAccountedFor (turn : Turn) : Prop :=
  match turn.part.attempt? with
  | none => turn.change? = none ∧ turn.outcome.vitals = turn.before
  | some (target, startTime) =>
    if turn.before.state.canMoveTo target then
      turn.change? = some (turn.before.state, target) ∧
        turn.outcome.vitals = ⟨target, startTime.apply turn.before.startedAt⟩ ∧
        (¬ turn.part.HasFailedHook → turn.outcome.result = .ok ())
    else
      turn.change? = none ∧ turn.outcome.vitals = turn.before ∧
        (¬ turn.part.HasFailedHook →
          turn.outcome.result = .error (Vitals.invalidMove turn.before.state target))

theorem Agent.Run.isAccountedFor {H : Type} {agent : Agent H} {interleaving : Interleaving}
    (run : agent.Run interleaving) {turn : Turn} (happened : turn ∈ interleaving.history) :
    turn.IsAccountedFor := by
  have fulfils := run.fulfils happened
  have changed : turn.change? = _ := fulfils.change?_eq
  have left := fulfils.vitals_eq
  unfold Turn.IsAccountedFor
  rw [changed]
  cases asked : turn.part.attempt? with
  | none => exact ⟨rfl, by simpa [asked, Vitals.afterAttempt] using left⟩
  | some attempt =>
      obtain ⟨target, startTime⟩ := attempt
      have told : ¬ turn.part.HasFailedHook → turn.outcome.result = _ := fun sound =>
        run.outcome_eq happened ▸
          CallSection.result_carryOut agent.profile turn.before asked sound
      by_cases possible : turn.before.state.canMoveTo target
      · simp only [asked, Vitals.afterAttempt, if_pos possible] at left told
        simp only [if_pos possible, Option.bind_some]
        exact ⟨trivial, left, told⟩
      · simp only [asked, Vitals.afterAttempt, if_neg possible] at left told
        simp only [if_neg possible, Option.bind_some]
        exact ⟨trivial, left, told⟩

/-- Whatever calls are made to an agent, and however their sections are
interleaved, its changes form one path that begins in the unknown state and ends
in the present one. All observers that are there are called for every change of
it, in the order of their registration, and for nothing else. Each section adds
the move it asks for to the path, or is refused it and adds nothing. -/
theorem transition_path {H : Type} {builder : AgentBuilder H} {agent : Agent H}
    (built : builder.build = .ok agent) {interleaving : Interleaving}
    (run : agent.Run interleaving) :
    agent.profile.observers = builder.observers ∧
      interleaving.tellings = interleaving.changes.flatMap agent.profile.tellingsOf ∧
      ((agent.profile.audience.map Observer.label).Nodup →
        ∀ observer ∈ agent.profile.audience,
          interleaving.heardBy observer.label = interleaving.changes) ∧
      AgentState.unknown.IsPath interleaving.changes interleaving.vitals.state ∧
      interleaving.vitals.state ∈ AgentState.all ∧
      ∀ turn ∈ interleaving.history, turn.IsAccountedFor := by
  obtain ⟨_, _, observers, fresh⟩ := builder.profile_of_build built
  have path : AgentState.unknown.IsPath interleaving.changes interleaving.vitals.state := by
    have all := run.isPath
    rwa [fresh] at all
  refine ⟨observers, run.tellings_eq, ?_, path, path.mem_all (by decide), ?_⟩
  · intro distinct observer present
    exact run.heardBy_eq present distinct
  · intro turn happened
    exact run.isAccountedFor happened

/-- A builder of agents with observers that throw, one that is missing, and a
hook for resuming. -/
def watchedBuilder : AgentBuilder Unit where
  id := "agent-001"
  name := "test-agent"
  version := "1.0.0"
  hooks := { resume := some () }
  observers :=
    [some ⟨"metrics", fun _ _ => .throws "full"⟩, none, some ⟨"audit", fun _ _ => .throwsOther⟩]

/-- The agent that `watchedBuilder` builds. -/
def watchedAgent : Agent Unit where
  profile :=
    { id := watchedBuilder.id
      name := watchedBuilder.name
      version := watchedBuilder.version
      capabilities := []
      hasLogger := false
      hooks := watchedBuilder.hooks
      observers := watchedBuilder.observers }

/-- While a start is under way, the agent is moved to running directly, and what
the start wants to do at last is refused. -/
def overtakenStart : List Interleaving.Event :=
  [.made (.operate .start), .made (.setState .running),
    .turn 0 (.gate .start none), .turn 0 (.inspect .start), .turn 0 (.commence .start),
    .turn 1 (.setState .running),
    .turn 0 (.leaveHook .start (.returned (.ok ()))),
    .turn 0 (.settle .start (.returned (.ok ())) .epoch)]

theorem transition_path_of_overtakenStart :
    watchedBuilder.build = .ok watchedAgent ∧
      watchedAgent.Run (watchedAgent.interleaved overtakenStart) ∧
      (watchedAgent.interleaved overtakenStart).tellings =
        [("metrics", .unknown, .starting), ("audit", .unknown, .starting),
          ("metrics", .starting, .running), ("audit", .starting, .running)] ∧
      (watchedAgent.interleaved overtakenStart).heardBy "audit" =
        [(.unknown, .starting), (.starting, .running)] ∧
      AgentState.unknown.IsPath [(.unknown, .starting), (.starting, .running)] .running ∧
      ∀ turn ∈ (watchedAgent.interleaved overtakenStart).history, turn.IsAccountedFor := by
  have run : watchedAgent.Run (watchedAgent.interleaved overtakenStart) := by
    apply Agent.Run.begin.afterAll
    repeat' constructor
    exact fun _ => rfl
  have built : watchedBuilder.build = .ok watchedAgent := rfl
  obtain ⟨_, told, heard, path, _, accounted⟩ := transition_path built run
  exact ⟨built, run, told, heard (by decide) _ (List.mem_cons_of_mem _ List.mem_cons_self), path,
    accounted⟩

end AgentKit
