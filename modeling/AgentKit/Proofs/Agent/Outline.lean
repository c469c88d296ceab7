/-
# What happens whoever observes

In the outline of what happens, a move of an agent stands in place of all that is
noticed because of its observers: their calls and the error records about those that
throw. Everything that an agent does has an outline in which its observers have no
part, and the events are what they make of it.
-/

import Mathlib.Algebra.Ring.Nat
import AgentKit.Agent.Session
import AgentKit.Proofs.Agent.Sections

namespace AgentKit

/-- The profile with other observers. -/
def Profile.observedBy {H : Type} (profile : Profile H) (observers : List (Option Observer)) :
    Profile H :=
  { profile with observers }

/-- The observer throws when it is told of a move. -/
def Observer.throwsAt (observer : Observer) (move : AgentState × AgentState) : Bool :=
  observer.react move.1 move.2 ≠ .returns

/-- The number of error records about observers that throw when they are told of moves. -/
def Profile.throwRecords {H : Type} (profile : Profile H)
    (moves : List (AgentState × AgentState)) : Nat :=
  (moves.map fun move => profile.audience.countP fun observer => observer.throwsAt move).sum

/-- What happens in a session to one agent and around it. -/
inductive OutlineEntry
  | happened (event : SessionEvent)
  | moved (move : AgentState × AgentState)

namespace OutlineEntry

/-- The event that an entry is, if it is one. -/
def event? : OutlineEntry → Option SessionEvent
  | happened event => some event
  | moved _ => none

/-- The move that an entry stands for. -/
def move? : OutlineEntry → Option (AgentState × AgentState)
  | happened _ => none
  | moved move => some move

/-- What an entry comes to when the agent has a profile. -/
def fill (profile : Profile Hook) : OutlineEntry → List SessionEvent
  | happened event => [event]
  | moved move => (profile.tellAll move.1 move.2).map .noticed

end OutlineEntry

/-- The events of an outline when the agent has a profile. -/
def Profile.fill (profile : Profile Hook) (outline : List OutlineEntry) : List SessionEvent :=
  outline.flatMap (OutlineEntry.fill profile)

namespace SessionEvent

/-- The entry of a hook, with what it sees. -/
def entry? : SessionEvent → Option (Operation × AgentState × Option Error)
  | entered operation state contextError => some (operation, state, contextError)
  | _ => none

/-- The answer to a request of a hook. -/
def answer? : SessionEvent → Option (Request × Reply)
  | answered request reply => some (request, reply)
  | _ => none

/-- A log record, with the logger it has been written to. -/
def record? : SessionEvent → Option (LogTarget × LogLevel × String)
  | noticed (.log target level text) => some (target, level, text)
  | _ => none

/-- A log record that is not about an error. -/
def plainRecord? (event : SessionEvent) : Option (LogTarget × LogLevel × String) :=
  event.record?.filter fun record => record.2.1 ≠ .error

/-- The event is a record about an error. -/
def isErrorRecord (event : SessionEvent) : Bool :=
  event.record?.any fun record => record.2.1 = .error

/-- The call of an observer. -/
def telling? : SessionEvent → Option (String × AgentState × AgentState)
  | noticed notice => notice.telling?
  | _ => none

end SessionEvent

/-- What the observers with a label have been told. -/
def SessionEvent.heardBy (label : String) (events : List SessionEvent) :
    List (AgentState × AgentState) :=
  ((events.filterMap telling?).filter fun telling => telling.1 = label).map Prod.snd

/-- What is heard under a label of an entry, if so many observers of the agent bear it. -/
def OutlineEntry.heard (label : String) (bearers : Nat) :
    OutlineEntry → List (AgentState × AgentState)
  | happened event => SessionEvent.heardBy label [event]
  | moved move => List.replicate bearers move

theorem SessionEvent.heardBy_append (label : String) (events more : List SessionEvent) :
    heardBy label (events ++ more) = heardBy label events ++ heardBy label more := by
  simp [heardBy]

namespace Profile

variable {profile : Profile Hook} {outline more : List OutlineEntry}

theorem fill_append : profile.fill (outline ++ more) = profile.fill outline ++ profile.fill more :=
  List.flatMap_append

/-- What has nothing to do with observers is filled in by nobody. -/
theorem fill_happened (events : List SessionEvent) :
    profile.fill (events.map .happened) = events := by
  induction events with
  | nil => rfl
  | cons event events ih => exact congrArg (event :: ·) ih

theorem fill_noticed (notices : List Notice) :
    profile.fill (notices.map fun notice => .happened (.noticed notice)) =
      notices.map .noticed := by
  rw [← fill_happened (notices.map .noticed), List.map_map]
  rfl

theorem fill_moved (source target : AgentState) :
    profile.fill [.moved (source, target)] = (profile.tellAll source target).map .noticed :=
  List.append_nil _

/-- Observers add calls and error records only. -/
theorem mem_tellAll {source target : AgentState} {notice : Notice}
    (mem : notice ∈ profile.tellAll source target) :
    (∃ label, notice = .observed label source target) ∨
      ∃ logger text, notice = .log logger .error text := by
  obtain ⟨observer, _, told⟩ := List.mem_flatMap.mp mem
  cases observer with
  | none => cases told
  | some observer =>
      rcases List.mem_cons.mp told with here | later
      · exact .inl ⟨_, here⟩
      · cases reaction : observer.react source target <;> simp [record, reaction] at later
        all_goals exact .inr ⟨_, _, later⟩

/-- Whoever reads neither calls of observers nor error records reads the outline. -/
theorem filterMap_fill {α : Type} {read : SessionEvent → Option α}
    (deaf : ∀ label source target, read (.noticed (.observed label source target)) = none)
    (blind : ∀ logger text, read (.noticed (.log logger .error text)) = none) :
    (profile.fill outline).filterMap read =
      (outline.filterMap OutlineEntry.event?).filterMap read := by
  induction outline with
  | nil => rfl
  | cons entry outline ih =>
      rw [← List.singleton_append, fill_append, List.filterMap_append, List.filterMap_append,
        List.filterMap_append, ih]
      congr 1
      cases entry with
      | happened event => rfl
      | moved move =>
          change (profile.fill [.moved move]).filterMap read = []
          rw [fill_moved, List.filterMap_eq_nil_iff]
          intro event mem
          obtain ⟨notice, told, rfl⟩ := List.mem_map.mp mem
          rcases mem_tellAll told with ⟨label, rfl⟩ | ⟨logger, text, rfl⟩
          · exact deaf label move.1 move.2
          · exact blind logger text

/-- An observer that throws leaves one error record. -/
theorem countP_tell (source target : AgentState) (observer : Observer) :
    ((profile.tell source target (some observer)).map SessionEvent.noticed).countP
        SessionEvent.isErrorRecord =
      if observer.throwsAt (source, target) then 1 else 0 := by
  cases reaction : observer.react source target <;>
    simp [tell, record, reaction, Observer.throwsAt, SessionEvent.isErrorRecord,
      SessionEvent.record?]

theorem countP_tellAll (move : AgentState × AgentState) :
    ((profile.tellAll move.1 move.2).map SessionEvent.noticed).countP
        SessionEvent.isErrorRecord =
      profile.throwRecords [move] := by
  unfold tellAll throwRecords audience
  induction profile.observers with
  | nil => simp
  | cons observer observers ih =>
      rw [List.flatMap_cons, List.map_append, List.countP_append, ih]
      cases observer with
      | none => simp [tell]
      | some observer =>
          rw [countP_tell]
          cases throws : observer.throwsAt move <;> simp [throws, Nat.add_comm]

theorem throwRecords_cons (move : AgentState × AgentState)
    (moves : List (AgentState × AgentState)) :
    profile.throwRecords (move :: moves) =
      profile.throwRecords [move] + profile.throwRecords moves := by
  simp [throwRecords]

/-- There is one error record for each throw, and there are those of the outline. -/
theorem countP_fill :
    (profile.fill outline).countP SessionEvent.isErrorRecord =
      (outline.filterMap OutlineEntry.event?).countP SessionEvent.isErrorRecord +
        profile.throwRecords (outline.filterMap OutlineEntry.move?) := by
  induction outline with
  | nil => simp [throwRecords, fill]
  | cons entry outline ih =>
      rw [← List.singleton_append, fill_append, List.countP_append, ih]
      cases entry with
      | happened event =>
          change [event].countP SessionEvent.isErrorRecord + _ =
            (event :: outline.filterMap OutlineEntry.event?).countP SessionEvent.isErrorRecord +
              profile.throwRecords (outline.filterMap OutlineEntry.move?)
          simp only [List.countP_cons, List.countP_nil]
          omega
      | moved move =>
          change (profile.fill [.moved move]).countP SessionEvent.isErrorRecord + _ =
            (outline.filterMap OutlineEntry.event?).countP SessionEvent.isErrorRecord +
              profile.throwRecords (move :: outline.filterMap OutlineEntry.move?)
          rw [fill_moved, countP_tellAll, throwRecords_cons move (outline.filterMap _)]
          omega

/-- The number of observers with a label. -/
def bearers (profile : Profile Hook) (label : String) : Nat :=
  profile.audience.countP fun observer => observer.label = label

theorem heardBy_tellAll (label : String) (move : AgentState × AgentState) :
    SessionEvent.heardBy label (profile.fill [.moved move]) =
      List.replicate (profile.bearers label) move := by
  have tellings : (profile.fill [.moved move]).filterMap SessionEvent.telling? =
      profile.tellingsOf move := by
    rw [← profile.filterMap_telling?_tellAll move.1 move.2, fill_moved, List.filterMap_map]
    rfl
  rw [SessionEvent.heardBy, tellings, tellingsOf, bearers]
  induction profile.audience with
  | nil => rfl
  | cons observer audience ih =>
      by_cases same : observer.label = label <;> simp_all [List.replicate_succ]

/-- Every move is heard once by each observer with the label. -/
theorem heardBy_fill (label : String) :
    SessionEvent.heardBy label (profile.fill outline) =
      outline.flatMap (OutlineEntry.heard label (profile.bearers label)) := by
  induction outline with
  | nil => rfl
  | cons entry outline ih =>
      rw [← List.singleton_append, fill_append, SessionEvent.heardBy_append, ih,
        List.flatMap_append, List.flatMap_singleton]
      cases entry with
      | happened event => rfl
      | moved move => exact congrArg (· ++ _) (profile.heardBy_tellAll label move)

end Profile

/-! ## Sections -/

/-- What an agent does is the same whoever observes: it leaves the same vitals with the
same result, and has one outline. -/
def Profile.IsUnobserved (profile : Profile Hook) (act : Profile Hook → LockedSection) : Prop :=
  ∃ vitals result outline, ∀ observers,
    (act (profile.observedBy observers)).vitals = vitals ∧
      (act (profile.observedBy observers)).result = result ∧
      (act (profile.observedBy observers)).notices.map SessionEvent.noticed =
        (profile.observedBy observers).fill outline

namespace Profile

variable (profile : Profile Hook) {act : Profile Hook → LockedSection}

theorem isUnobserved_idle (vitals : Vitals) (result : Except Error Unit) :
    profile.IsUnobserved fun _ => ⟨vitals, [], result⟩ :=
  ⟨vitals, result, [], fun _ => ⟨rfl, rfl, rfl⟩⟩

theorem isUnobserved_move (vitals : Vitals) (target : AgentState) (startTime : StartTime) :
    profile.IsUnobserved fun profile => profile.move vitals target startTime := by
  by_cases possible : vitals.state.canMoveTo target
  · simp only [move_of_canMoveTo _ possible]
    exact ⟨_, _, [.moved (vitals.state, target)],
      fun observers => ⟨rfl, rfl, (fill_moved _ _).symm⟩⟩
  · simp only [move_of_not_canMoveTo _ possible]
    exact profile.isUnobserved_idle vitals _

/-- Records that an agent writes itself do not depend on who observes. -/
theorem IsUnobserved.withRecord {profile : Profile Hook} (unobserved : profile.IsUnobserved act)
    {records : Profile Hook → List Notice}
    (own : ∀ observers, records (profile.observedBy observers) = records profile) :
    profile.IsUnobserved fun profile =>
      match (act profile).result with
      | .ok () => { act profile with notices := (act profile).notices ++ records profile }
      | .error _ => act profile := by
  obtain ⟨vitals, result, outline, same⟩ := unobserved
  cases result with
  | ok _ =>
      refine ⟨vitals, .ok (), outline ++ (records profile).map fun notice =>
        .happened (.noticed notice), fun observers => ?_⟩
      obtain ⟨vitalsEq, resultEq, notices⟩ := same observers
      simp only [resultEq]
      refine ⟨vitalsEq, trivial, ?_⟩
      rw [List.map_append, notices, own, fill_append, fill_noticed]
  | error error =>
      refine ⟨vitals, .error error, outline, fun observers => ?_⟩
      obtain ⟨vitalsEq, resultEq, notices⟩ := same observers
      simp only [resultEq]
      exact ⟨vitalsEq, trivial, notices⟩

end Profile

/-- Observers have no part in how an operation commences. -/
theorem Operation.isUnobserved_commence (operation : Operation) (profile : Profile Hook)
    (vitals : Vitals) : profile.IsUnobserved fun profile => operation.commence profile vitals := by
  unfold Operation.commence
  refine Profile.IsUnobserved.withRecord ?_ (fun _ => rfl)
  cases operation.transient? with
  | some transient => exact profile.isUnobserved_move vitals transient .keep
  | none =>
      by_cases sound : operation.precondition vitals.state
      · simp only [sound, if_true]
        exact profile.isUnobserved_idle vitals _
      · simp only [sound]
        exact profile.isUnobserved_idle vitals _

/-- Observers have no part in how an operation fails, although some may be told that the
agent has failed. -/
theorem Operation.isUnobserved_abort (operation : Operation) (profile : Profile Hook)
    (vitals : Vitals) (cause : Error) :
    profile.IsUnobserved fun profile => operation.abort profile vitals cause := by
  by_cases possible : vitals.state.canMoveTo .failed
  · simp only [abort, Profile.setState, Profile.move_of_canMoveTo _ possible, List.append_nil]
    refine ⟨_, _, (operation.failureRecord profile cause).map (fun notice =>
      .happened (.noticed notice)) ++ [.moved (vitals.state, .failed)],
      fun observers => ⟨rfl, rfl, ?_⟩⟩
    rw [Profile.fill_append, Profile.fill_noticed, Profile.fill_moved, ← List.map_append]
    rfl
  · simp only [abort, Profile.setState, Profile.move_of_not_canMoveTo _ possible, List.append_nil]
    refine ⟨_, _, (operation.failureRecord profile cause ++ rejectionRecord profile
      (Vitals.invalidMove vitals.state .failed)).map fun notice => .happened (.noticed notice),
      fun observers => ⟨rfl, rfl, ?_⟩⟩
    rw [Profile.fill_noticed]
    rfl

/-- Observers have no part in how an operation is settled. -/
theorem Operation.isUnobserved_settle (operation : Operation) (profile : Profile Hook)
    (vitals : Vitals) (now : Instant) (outcome : HookOutcome) :
    profile.IsUnobserved fun profile => operation.settle profile vitals now outcome := by
  unfold Operation.settle
  cases outcome.result with
  | ok _ => exact (profile.isUnobserved_move vitals operation.target _).withRecord fun _ => rfl
  | error cause => exact operation.isUnobserved_abort profile vitals cause

end AgentKit
