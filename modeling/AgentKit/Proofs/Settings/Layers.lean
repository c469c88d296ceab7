/-
# The precedence of layers

Loading goes over the settings in place, one layer after the other, and within a
layer one binding after the other. Where every member is bound once at most, all
of this comes down to the members: each layer makes a new value of the old one
of a member, whatever the others are. So the last place that has a value for a
member decides, an environment variable before the file, the file before the
default, and the default before the value the member has had; and it does not
matter in which order the members are bound.
-/

import AgentKit.Settings.Loader

namespace AgentKit

/-- The members of bindings, each bound once. -/
def SettingBinding.AreDistinct {ι : Type} (bindings : List (SettingBinding ι)) : Prop :=
  (bindings.map SettingBinding.member).Nodup

/-- What a layer makes of the old value of a bound member. -/
abbrev MemberRule {ι : Type} (schema : ι → SettingKind) : Type :=
  (binding : SettingBinding ι) → (schema binding.member).Value →
    Except Error (schema binding.member).Value

namespace Settings

variable {ι : Type} {schema : ι → SettingKind}

theorem set_self [DecidableEq ι] (settings : Settings schema) (member : ι) :
    settings.set member (settings member) = settings := by
  funext other
  by_cases same : member = other
  · subst same
    rw [set_same]
  · rw [set_of_ne _ same]

/-- Every bound member has been given what is made of its old value, and the others
are as they were. -/
structure AreFilled (make : MemberRule schema) (bindings : List (SettingBinding ι))
    (first last : Settings schema) : Prop where
  bound : ∀ binding ∈ bindings,
    make binding (first binding.member) = .ok (last binding.member)
  unbound : ∀ member, (∀ binding ∈ bindings, binding.member ≠ member) →
    last member = first member

variable {make : MemberRule schema} {bindings others : List (SettingBinding ι)}
  {first last : Settings schema}

theorem areFilled_nil_iff : AreFilled make [] first last ↔ first = last := by
  constructor
  · intro filled
    funext member
    exact (filled.unbound member (List.forall_mem_nil _)).symm
  · rintro rfl
    exact ⟨List.forall_mem_nil _, fun _ _ => rfl⟩

/-- The first of several bindings of different members is filled without regard to the
others. -/
theorem areFilled_cons_iff [DecidableEq ι] {binding : SettingBinding ι}
    (fresh : ∀ other ∈ bindings, other.member ≠ binding.member) :
    AreFilled make (binding :: bindings) first last ↔
      make binding (first binding.member) = .ok (last binding.member) ∧
        AreFilled make bindings (first.set binding.member (last binding.member)) last := by
  constructor
  · intro filled
    refine ⟨filled.bound binding List.mem_cons_self, ?_, ?_⟩
    · intro other mem
      rw [set_of_ne _ (fresh other mem).symm]
      exact filled.bound other (List.mem_cons_of_mem _ mem)
    · intro member free
      by_cases same : binding.member = member
      · subst same
        rw [set_same]
      · rw [set_of_ne _ same]
        exact filled.unbound member (List.forall_mem_cons.mpr ⟨same, free⟩)
  · rintro ⟨here, filled⟩
    refine ⟨List.forall_mem_cons.mpr ⟨here, ?_⟩, ?_⟩
    · intro other mem
      have there := filled.bound other mem
      rwa [set_of_ne _ (fresh other mem).symm] at there
    · intro member free
      obtain ⟨other, free⟩ := List.forall_mem_cons.mp free
      rw [filled.unbound member free, set_of_ne _ other]

/-- The order of the bindings does not matter. -/
theorem AreFilled.of_perm (filled : AreFilled make bindings first last)
    (perm : bindings.Perm others) : AreFilled make others first last :=
  ⟨fun binding mem => filled.bound binding (perm.mem_iff.mpr mem),
    fun member free => filled.unbound member fun binding mem =>
      free binding (perm.mem_iff.mp mem)⟩

end Settings

namespace Loading

variable {ι : Type} {schema : ι → SettingKind}

theorem andThen_eq_ok_iff {loading : Loading schema}
    {next : Settings schema → Loading schema} {last : Settings schema} :
    loading.andThen next = ⟨last, .ok ()⟩ ↔
      ∃ middle, loading = ⟨middle, .ok ()⟩ ∧ next middle = ⟨last, .ok ()⟩ := by
  obtain ⟨settings, result⟩ := loading
  cases result with
  | ok _ =>
      constructor
      · exact fun done => ⟨settings, rfl, done⟩
      · rintro ⟨_, same, done⟩
        cases same
        exact done
  | error failure =>
      constructor
      · intro done
        cases done
      · rintro ⟨_, same, _⟩
        cases same

/-- A step that makes a new value of the old one of the bound member, or fails where
this cannot be done. -/
def IsMemberwise [DecidableEq ι]
    (step : SettingBinding ι → Settings schema → Except LoadFailure (Settings schema))
    (make : MemberRule schema) : Prop :=
  ∀ binding settings,
    (∃ value, make binding (settings binding.member) = .ok value ∧
      step binding settings = .ok (settings.set binding.member value)) ∨
    ∃ fault failure, make binding (settings binding.member) = .error fault ∧
      step binding settings = .error failure

/-- A layer of such steps succeeds if and only if all bound members can be filled. -/
theorem inOrder_eq_ok_iff [DecidableEq ι]
    {step : SettingBinding ι → Settings schema → Except LoadFailure (Settings schema)}
    {make : MemberRule schema} (memberwise : IsMemberwise step make)
    {bindings : List (SettingBinding ι)}
    (distinct : SettingBinding.AreDistinct bindings) {first last : Settings schema} :
    inOrder step bindings first = ⟨last, .ok ()⟩ ↔
      Settings.AreFilled make bindings first last := by
  induction bindings generalizing first with
  | nil => simp [inOrder, Settings.areFilled_nil_iff]
  | cons binding rest ih =>
      obtain ⟨fresh, distinct⟩ := List.nodup_cons.mp distinct
      have fresh : ∀ other ∈ rest, other.member ≠ binding.member := fun other mem same =>
        fresh (List.mem_map.mpr ⟨other, mem, same⟩)
      rw [Settings.areFilled_cons_iff fresh]
      rcases memberwise binding first with ⟨value, made, stepped⟩ | ⟨fault, failure, made, stepped⟩
      · simp only [inOrder, stepped, made, Except.ok.injEq, ih distinct]
        constructor
        · intro filled
          have here := filled.unbound binding.member fresh
          rw [Settings.set_same] at here
          rw [here]
          exact ⟨rfl, filled⟩
        · rintro ⟨rfl, filled⟩
          exact filled
      · simp [inOrder, stepped, made]

variable {loading : Loading schema} {last : Settings schema}

/-- Loading has come with success to settings that are known member by member. -/
theorem eq_ok_of_forall (succeeds : loading.result.isOk = true)
    (values : ∀ member, loading.settings member = last member) : loading = ⟨last, .ok ()⟩ := by
  obtain ⟨settings, result⟩ := loading
  cases result with
  | error failure => cases succeeds
  | ok _ =>
      cases show settings = last from funext values
      rfl

/-- Loading has ended with an error at settings that are known member by member. -/
theorem exists_eq_returned_of_forall
    (fails : (loading.result matches .error (.returned _)) = true)
    (values : ∀ member, loading.settings member = last member) :
    ∃ error, loading = ⟨last, .error (.returned error)⟩ := by
  obtain ⟨settings, result⟩ := loading
  rcases result with (error | exception) | _
  · cases show settings = last from funext values
    exact ⟨error, rfl⟩
  · cases fails
  · cases fails

end Loading

/-! ## The places of values -/

namespace Loader

variable {ι : Type} {schema : ι → SettingKind} (loader : Loader schema)
  (surroundings : Surroundings) (binding : SettingBinding ι)

/-- The text of the environment variable of a binding, if it has one that is set. -/
def variableText? : Option String :=
  if binding.variableName.isEmpty then none
  else surroundings.environmentText? (loader.variableKey binding.variableName)

/-- The value in the file of a loader, if there is one. -/
def fileRoot? : Option Json :=
  if loader.file.isEmpty then none else surroundings.jsonAt? loader.file

/-- What the file of a loader has at the path of a binding, unless it is null. -/
def fileValue? : Option Json :=
  (loader.fileRoot? surroundings).bind fun root =>
    (root.atPath? binding.path).filter fun value => !value.isNull

/-- The default of a binding, if the member is empty. -/
def fallbackText? (value : (schema binding.member).Value) : Option String :=
  if (schema binding.member).isEmpty value then binding.fallback else none

/-- The rule of the layer of environment variables. -/
def variableRule : MemberRule schema := fun binding value =>
  match loader.variableText? surroundings binding with
  | some text => (schema binding.member).ofText text
  | none => .ok value

/-- The rule of the layer of the file. -/
def fileRule : MemberRule schema := fun binding value =>
  match loader.fileValue? surroundings binding with
  | some found => (schema binding.member).ofJson found
  | none => .ok value

/-- The rule of the layer of defaults. -/
def fallbackRule : MemberRule schema := fun binding value =>
  match fallbackText? binding value with
  | some text => (schema binding.member).ofText text
  | none => .ok value

/-- The value of a member after loading, from the first place that has one: its
environment variable, the file, its default, and the settings as they were. -/
def suppliedValue (settings : Settings schema) : Except Error (schema binding.member).Value :=
  match loader.variableText? surroundings binding with
  | some text => (schema binding.member).ofText text
  | none =>
    match loader.fileValue? surroundings binding with
    | some found => (schema binding.member).ofJson found
    | none =>
      match fallbackText? binding (settings binding.member) with
      | some text => (schema binding.member).ofText text
      | none => .ok (settings binding.member)

variable {loader surroundings}

theorem store_cases [DecidableEq ι] (settings : Settings schema) (member : ι)
    (value : Except Error (schema member).Value) (message : String) :
    (∃ new, value = .ok new ∧ store settings member value message = .ok (settings.set member new)) ∨
      ∃ fault failure, value = .error fault ∧
        store settings member value message = .error failure := by
  cases value with
  | ok new => exact .inl ⟨new, rfl, rfl⟩
  | error fault => exact .inr ⟨fault, _, rfl, rfl⟩

/-- A step that has nothing for a member keeps its value. -/
theorem keep_cases [DecidableEq ι] (settings : Settings schema) (member : ι) :
    ∃ new, (.ok (settings member) : Except Error (schema member).Value) = .ok new ∧
      (.ok settings : Except LoadFailure (Settings schema)) = .ok (settings.set member new) :=
  ⟨settings member, rfl, by rw [Settings.set_self]⟩

theorem isMemberwise_applyFallback [DecidableEq ι] :
    Loading.IsMemberwise applyFallback (fallbackRule : MemberRule schema) := by
  intro binding settings
  simp only [applyFallback, fallbackRule, fallbackText?, Settings.isEmpty]
  cases binding.fallback with
  | none =>
      simp only [ite_self]
      exact .inl (keep_cases settings binding.member)
  | some text =>
      by_cases empty : (schema binding.member).isEmpty (settings binding.member)
      · simp only [empty, if_true]
        exact store_cases settings binding.member _ _
      · simp only [empty]
        exact .inl (keep_cases settings binding.member)

theorem isMemberwise_applyJson [DecidableEq ι] {root : Json}
    (found : loader.fileRoot? surroundings = some root) :
    Loading.IsMemberwise (applyJson loader.file root) (loader.fileRule surroundings) := by
  intro binding settings
  simp only [applyJson, fileRule, fileValue?, found, Option.bind_some]
  cases reached : root.atPath? binding.path with
  | none => exact .inl (keep_cases settings binding.member)
  | some value =>
      cases value with
      | null => exact .inl (keep_cases settings binding.member)
      | bool | int | float | str | arr | obj => exact store_cases settings binding.member _ _

theorem isMemberwise_applyVariable [DecidableEq ι] :
    Loading.IsMemberwise (loader.applyVariable surroundings)
      (loader.variableRule surroundings) := by
  intro binding settings
  simp only [applyVariable, variableRule, variableText?]
  by_cases unnamed : binding.variableName.isEmpty
  · simp only [unnamed, if_true]
    exact .inl (keep_cases settings binding.member)
  · simp only [unnamed]
    cases surroundings.environmentText? (loader.variableKey binding.variableName) with
    | none => exact .inl (keep_cases settings binding.member)
    | some text => exact store_cases settings binding.member _ _

/-! ## Layers of a loader -/

/-- There is no file to read, or it can be read. -/
def AcceptsFile (loader : Loader schema) (surroundings : Surroundings) : Prop :=
  loader.file.isEmpty ∨ ∃ root, readFile loader.file surroundings = .ok root

/-- What is read of a file is its value. -/
theorem fileRoot?_of_readFile {root : Option Json} (named : ¬ loader.file.isEmpty)
    (read : readFile loader.file surroundings = .ok root) :
    loader.fileRoot? surroundings = root := by
  rw [fileRoot?, if_neg named]
  unfold Surroundings.jsonAt?
  unfold readFile at read
  split at read
  · cases read
  · cases entry : surroundings.entry? loader.file with
    | none =>
        rw [entry] at read
        cases read
        rfl
    | some found =>
        simp only [entry] at read
        split at read
        · cases read
        · cases found with
          | closed => cases read
          | opens stream =>
              cases made : surroundings.readJson stream with
              | throws exception =>
                  simp only [made] at read
                  cases read
              | fault description =>
                  simp only [made] at read
                  cases read
              | value json =>
                  simp only [made] at read
                  split at read
                  · cases read
                    simp only [made]
                  · cases read

/-- Where there is no value in the file, its layer changes nothing. -/
theorem areFilled_fileRule_iff_of_none (absent : loader.fileRoot? surroundings = none)
    {bindings : List (SettingBinding ι)} {first last : Settings schema} :
    Settings.AreFilled (loader.fileRule surroundings) bindings first last ↔ first = last := by
  have keeps : ∀ binding value, loader.fileRule surroundings binding value = .ok value := by
    intro binding value
    simp [fileRule, fileValue?, absent]
  constructor
  · intro filled
    funext member
    by_cases bound : ∃ binding ∈ bindings, binding.member = member
    · obtain ⟨binding, mem, rfl⟩ := bound
      exact Except.ok.inj ((keeps binding _).symm.trans (filled.bound binding mem))
    · refine (filled.unbound member fun binding mem same => ?_).symm
      exact bound ⟨binding, mem, same⟩
  · rintro rfl
    exact ⟨fun binding _ => keeps binding _, fun _ _ => rfl⟩

theorem fallbackLayer_eq_ok_iff [DecidableEq ι]
    (distinct : SettingBinding.AreDistinct loader.bindings) {first last : Settings schema} :
    loader.fallbackLayer first = ⟨last, .ok ()⟩ ↔
      Settings.AreFilled fallbackRule loader.bindings first last :=
  Loading.inOrder_eq_ok_iff isMemberwise_applyFallback distinct

theorem fileLayer_eq_ok_iff [DecidableEq ι]
    (distinct : SettingBinding.AreDistinct loader.bindings) {first last : Settings schema} :
    loader.fileLayer surroundings first = ⟨last, .ok ()⟩ ↔
      loader.AcceptsFile surroundings ∧
        Settings.AreFilled (loader.fileRule surroundings) loader.bindings first last := by
  unfold fileLayer AcceptsFile
  by_cases unnamed : loader.file.isEmpty
  · have absent : loader.fileRoot? surroundings = none := by simp [fileRoot?, unnamed]
    simp [unnamed, areFilled_fileRule_iff_of_none absent]
  · simp only [unnamed]
    cases read : readFile loader.file surroundings with
    | error failure => simp
    | ok root =>
        have found := fileRoot?_of_readFile unnamed read
        cases root with
        | none => simp [areFilled_fileRule_iff_of_none found]
        | some root =>
            simp [Loading.inOrder_eq_ok_iff (isMemberwise_applyJson found) distinct]

theorem variableLayer_eq_ok_iff [DecidableEq ι]
    (distinct : SettingBinding.AreDistinct loader.bindings) {first last : Settings schema} :
    loader.variableLayer surroundings first = ⟨last, .ok ()⟩ ↔
      Settings.AreFilled (loader.variableRule surroundings) loader.bindings first last :=
  Loading.inOrder_eq_ok_iff isMemberwise_applyVariable distinct

theorem validate_eq_ok_iff {settings : Settings schema} :
    loader.validate settings = .ok () ↔
      (∀ binding ∈ loader.bindings, binding.required → ¬ settings.isEmpty binding.member) ∧
        loader.check settings = .ok () := by
  unfold validate
  cases missing : loader.bindings.find? fun binding =>
      binding.required && settings.isEmpty binding.member with
  | none =>
      have present := List.find?_eq_none.mp missing
      simp_all
  | some binding =>
      have found := List.find?_some missing
      have mem := List.mem_of_find?_eq_some missing
      simp only [Bool.and_eq_true] at found
      constructor
      · intro done
        cases done
      · rintro ⟨complete, _⟩
        exact absurd found.2 (complete binding mem found.1)

/-- The settings that a loader leads to with success, through those after the layer of
defaults and those after the layer of the file. -/
structure Succeeds (loader : Loader schema) (surroundings : Surroundings)
    (first afterDefaults afterFile last : Settings schema) : Prop where
  defaults : Settings.AreFilled fallbackRule loader.bindings first afterDefaults
  accepts : loader.AcceptsFile surroundings
  file : Settings.AreFilled (loader.fileRule surroundings) loader.bindings afterDefaults afterFile
  environment :
    Settings.AreFilled (loader.variableRule surroundings) loader.bindings afterFile last
  complete : ∀ binding ∈ loader.bindings, binding.required → ¬ last.isEmpty binding.member
  checked : loader.check last = .ok ()

theorem loadInto_eq_ok_iff [DecidableEq ι]
    (distinct : SettingBinding.AreDistinct loader.bindings) {first last : Settings schema} :
    loader.loadInto surroundings first = ⟨last, .ok ()⟩ ↔
      ∃ afterDefaults afterFile,
        loader.Succeeds surroundings first afterDefaults afterFile last := by
  simp only [loadInto, Loading.andThen_eq_ok_iff, fallbackLayer_eq_ok_iff distinct,
    fileLayer_eq_ok_iff distinct, variableLayer_eq_ok_iff distinct]
  constructor
  · rintro ⟨_, ⟨afterFile, ⟨afterDefaults, defaults, accepts, file⟩, environment⟩, done⟩
    obtain ⟨rfl, valid⟩ := Loading.mk.inj done
    obtain ⟨complete, checked⟩ := validate_eq_ok_iff.mp valid
    exact ⟨afterDefaults, afterFile, defaults, accepts, file, environment, complete, checked⟩
  · rintro ⟨afterDefaults, afterFile, success⟩
    refine ⟨last, ⟨afterFile, ⟨afterDefaults, success.defaults, success.accepts, success.file⟩,
      success.environment⟩, ?_⟩
    rw [validate_eq_ok_iff.mpr ⟨success.complete, success.checked⟩]

namespace Succeeds

variable {first afterDefaults afterFile last : Settings schema}

/-- Each bound member has the value from the first place that has one. -/
theorem suppliedValue_eq (success : loader.Succeeds surroundings first afterDefaults afterFile last)
    {binding : SettingBinding ι} (bound : binding ∈ loader.bindings) :
    loader.suppliedValue surroundings binding first = .ok (last binding.member) := by
  have defaults := success.defaults.bound binding bound
  have file := success.file.bound binding bound
  have environment := success.environment.bound binding bound
  unfold suppliedValue
  unfold variableRule at environment
  split at environment
  · exact environment
  · rw [← Except.ok.inj environment]
    unfold fileRule at file
    split at file
    · exact file
    · rw [← Except.ok.inj file]
      exact defaults

theorem unbound_eq (success : loader.Succeeds surroundings first afterDefaults afterFile last)
    {member : ι} (free : ∀ binding ∈ loader.bindings, binding.member ≠ member) :
    last member = first member := by
  calc last member = afterFile member := success.environment.unbound member free
    _ = afterDefaults member := success.file.unbound member free
    _ = first member := success.defaults.unbound member free

theorem of_perm (success : loader.Succeeds surroundings first afterDefaults afterFile last)
    {bindings : List (SettingBinding ι)} (perm : loader.bindings.Perm bindings) :
    Succeeds { loader with bindings } surroundings first afterDefaults afterFile last where
  defaults := success.defaults.of_perm perm
  accepts := success.accepts
  file := success.file.of_perm perm
  environment := success.environment.of_perm perm
  complete binding mem := success.complete binding (perm.mem_iff.mpr mem)
  checked := success.checked

end Succeeds

/-- Where loading succeeds, each bound member has the value of its environment variable;
without one that of the file, without that its default if it was empty, and otherwise
the value it had. Members that are not bound are as they were, and no required member
is empty. Whether loading succeeds and to which settings it leads does not depend on
the order of the bindings. -/
theorem loadInto_takes_first_place [DecidableEq ι]
    (distinct : SettingBinding.AreDistinct loader.bindings) (surroundings : Surroundings)
    (first : Settings schema) :
    (∀ last, loader.loadInto surroundings first = ⟨last, .ok ()⟩ →
        (∀ binding ∈ loader.bindings,
          loader.suppliedValue surroundings binding first = .ok (last binding.member)) ∧
        (∀ member, (∀ binding ∈ loader.bindings, binding.member ≠ member) →
          last member = first member) ∧
        ∀ binding ∈ loader.bindings, binding.required → ¬ last.isEmpty binding.member) ∧
      ∀ bindings, loader.bindings.Perm bindings → ∀ last,
        loader.loadInto surroundings first = ⟨last, .ok ()⟩ ↔
          Loader.loadInto { loader with bindings } surroundings first = ⟨last, .ok ()⟩ := by
  constructor
  · intro last loaded
    obtain ⟨_, _, success⟩ := (loadInto_eq_ok_iff distinct).mp loaded
    exact ⟨fun _ => success.suppliedValue_eq, fun _ => success.unbound_eq, success.complete⟩
  · intro bindings perm last
    let reordered : Loader schema := { loader with bindings }
    have distinct' : SettingBinding.AreDistinct reordered.bindings :=
      (perm.map _).nodup_iff.mp distinct
    rw [loadInto_eq_ok_iff distinct, loadInto_eq_ok_iff distinct']
    constructor
    · rintro ⟨afterDefaults, afterFile, success⟩
      exact ⟨afterDefaults, afterFile, success.of_perm perm⟩
    · rintro ⟨afterDefaults, afterFile, success⟩
      exact ⟨afterDefaults, afterFile, success.of_perm perm.symm⟩

end Loader

/-- The members of a service's settings. -/
inductive ServiceMember
  | host
  | port
  | tags
  | timeout
  | debug
  deriving DecidableEq

/-- The kinds of a service's settings. -/
def serviceSchema : ServiceMember → SettingKind
  | .host => .text
  | .port => .integer ⟨true, 32⟩
  | .tags => .list
  | .timeout => .duration
  | .debug => .flag

/-- The settings of a service. -/
def serviceSettings (host : String) (port : Int) (tags : List String) (timeout : Int)
    (debug : Bool) : Settings serviceSchema
  | .host => host
  | .port => port
  | .tags => tags
  | .timeout => timeout
  | .debug => debug

/-- A loader that leaves one member unbound. -/
def serviceLoader : Loader serviceSchema where
  bindings :=
    [{ member := .host, path := "net.host", variableName := "HOST", fallback := some "localhost" },
      { member := .port, path := "net.port", variableName := "PORT", fallback := some "8080",
        required := true },
      { member := .tags, path := "tags", fallback := some "a, b" },
      { member := .timeout, path := "timeout", fallback := some "5s" }]
  variablePrefix := "svc"
  file := "service.json"

/-- Surroundings with one file, and a reader that knows the text in it. -/
def Surroundings.ofFile (environment : List (String × String)) (path text : String)
    (root : Json) : Surroundings where
  environment
  entry? other := if other = path then some (.opens (.ofText text)) else none
  readJson stream :=
    if stream = .ofText text then .value root else .fault "this is not the text of the file"

/-- A variable that is set to the empty text, and a file that has null for a member. -/
def serviceSurroundings : Surroundings :=
  .ofFile [("SVC_HOST", "")] "service.json"
    "\x7b\"net\":\x7b\"host\":\"h\",\"port\":null\x7d,\"tags\":[\"x\"]\x7d"
    (.obj [("net", .obj [("host", .str "h"), ("port", .null)]), ("tags", .arr [.str "x"])])

/-- Each place counts for one of the members: the variable, which is empty, for the
host, the default for the port, the file for the tags and the settings as they were
for the timeout. -/
theorem loadInto_takes_first_place_of_service :
    SettingBinding.AreDistinct serviceLoader.bindings ∧
      serviceLoader.loadInto serviceSurroundings (serviceSettings "" 0 [] 250 true) =
        ⟨serviceSettings "" 8080 ["x"] 250 true, .ok ()⟩ ∧
      (∀ binding ∈ serviceLoader.bindings,
        serviceLoader.suppliedValue serviceSurroundings binding (serviceSettings "" 0 [] 250 true) =
          .ok (serviceSettings "" 8080 ["x"] 250 true binding.member)) ∧
      Loader.loadInto { serviceLoader with bindings := serviceLoader.bindings.reverse }
          serviceSurroundings (serviceSettings "" 0 [] 250 true) =
        ⟨serviceSettings "" 8080 ["x"] 250 true, .ok ()⟩ := by
  have distinct : SettingBinding.AreDistinct serviceLoader.bindings :=
    (by decide : (serviceLoader.bindings.map SettingBinding.member).Nodup)
  have loaded : serviceLoader.loadInto serviceSurroundings (serviceSettings "" 0 [] 250 true) =
      ⟨serviceSettings "" 8080 ["x"] 250 true, .ok ()⟩ :=
    Loading.eq_ok_of_forall (by decide +kernel) fun member => by
      cases member <;> decide +kernel
  obtain ⟨taken, reordered⟩ :=
    Loader.loadInto_takes_first_place distinct serviceSurroundings
      (serviceSettings "" 0 [] 250 true)
  exact ⟨distinct, loaded, (taken _ loaded).1, (reordered _ (List.reverse_perm _).symm _).mp loaded⟩

end AgentKit
