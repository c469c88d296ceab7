/-
# Loading settings

Settings are a record whose members have kinds. A loader binds some of the
members to places where their values may come from and fills them in layers:
defaults for members that are still empty, then the values found in a JSON
file, then environment variables. Afterwards required members must not be
empty, and the settings as a whole may have a check of their own.

Layers are applied to the record in place and in the order of the bindings. The
first failure ends loading, and what has been applied until then stays. Failures
are errors, which are returned, and exceptions, which are not caught: a fault in
the text of the file is an error, but what else the reader of JSON throws is not.
-/

import AgentKit.Settings.Path
import AgentKit.Settings.Surroundings
import AgentKit.Settings.Value

namespace AgentKit

/-- A record of settings: a value for every member, of the member's kind. -/
def Settings {ι : Type} (schema : ι → SettingKind) : Type :=
  (member : ι) → (schema member).Value

namespace Settings

variable {ι : Type} {schema : ι → SettingKind}

/-- The settings with every member empty. -/
def blank : Settings schema :=
  fun member => (schema member).empty

/-- The settings with one member changed. -/
def set [DecidableEq ι] (settings : Settings schema) (member : ι)
    (value : (schema member).Value) : Settings schema :=
  fun other => if same : member = other then same ▸ value else settings other

@[simp]
theorem set_same [DecidableEq ι] (settings : Settings schema) (member : ι)
    (value : (schema member).Value) : settings.set member value member = value := by
  simp [set]

theorem set_of_ne [DecidableEq ι] (settings : Settings schema) {member other : ι}
    (differ : member ≠ other) (value : (schema member).Value) :
    settings.set member value other = settings other := by
  simp [set, differ]

/-- Whether a member is empty. -/
def isEmpty (settings : Settings schema) (member : ι) : Bool :=
  (schema member).isEmpty (settings member)

end Settings

/-- Binds a member to the places where its value may come from: a dotted path in
the file, an environment variable, none if its name is empty, and a default in
the same form as the variable's text. -/
structure SettingBinding (ι : Type) where
  member : ι
  path : String
  variableName : String := ""
  fallback : Option String := none
  required : Bool := false

/-- How loading fails: an error is returned, or an exception passes through. -/
inductive LoadFailure
  | returned (error : Error)
  | thrown (exception : String)

/-- The result of applying layers: how far the settings came, and whether all
went well. -/
structure Loading {ι : Type} (schema : ι → SettingKind) where
  settings : Settings schema
  result : Except LoadFailure Unit

namespace Loading

variable {ι : Type} {schema : ι → SettingKind}

/-- Goes on unless something has failed. -/
def andThen (loading : Loading schema) (next : Settings schema → Loading schema) :
    Loading schema :=
  match loading.result with
  | .ok () => next loading.settings
  | .error _ => loading

/-- Applies a step for each binding in order, up to the first that fails. -/
def inOrder (step : SettingBinding ι → Settings schema → Except LoadFailure (Settings schema)) :
    List (SettingBinding ι) → Settings schema → Loading schema
  | [], settings => ⟨settings, .ok ()⟩
  | binding :: rest, settings =>
    match step binding settings with
    | .ok settings => inOrder step rest settings
    | .error failure => ⟨settings, .error failure⟩

end Loading

/-- Where settings come from and what they have to satisfy. -/
structure Loader {ι : Type} (schema : ι → SettingKind) where
  bindings : List (SettingBinding ι)
  variablePrefix : String := ""
  file : String := ""
  check : Settings schema → Except LoadFailure Unit := fun _ => .ok ()

namespace Loader

variable {ι : Type} {schema : ι → SettingKind}

/-- The environment variable that a name stands for: the name alone, or after the
prefix in upper case and an underscore. -/
def variableKey (loader : Loader schema) (name : String) : String :=
  if loader.variablePrefix.isEmpty then name
  else Text.upper loader.variablePrefix ++ "_" ++ name

/-- A failure while loading. -/
def failure (message : String) : Error :=
  .make .internalConfiguration ("config: " ++ message)

/-- A value that could not be read, with the place it comes from. -/
def misread (cause : Error) (message : String) : Error :=
  cause.wrapping .internalConfiguration ("config: " ++ message)

/-- Changes a member to a value that was read, or reports where it could not be
read. -/
def store [DecidableEq ι] (settings : Settings schema) (member : ι)
    (value : Except Error (schema member).Value) (message : String) :
    Except LoadFailure (Settings schema) :=
  match value with
  | .ok value => .ok (settings.set member value)
  | .error error => .error (.returned (misread error message))

/-! ## Layers -/

/-- Gives an empty member its default. -/
def applyFallback [DecidableEq ι] (binding : SettingBinding ι) (settings : Settings schema) :
    Except LoadFailure (Settings schema) :=
  match binding.fallback with
  | none => .ok settings
  | some text =>
    if settings.isEmpty binding.member then
      store settings binding.member ((schema binding.member).ofText text)
        ("failed to apply default for field " ++ Text.quoted binding.path)
    else .ok settings

/-- Gives a member the value that the file has for it; null counts as none. -/
def applyJson [DecidableEq ι] (file : String) (root : Json) (binding : SettingBinding ι)
    (settings : Settings schema) : Except LoadFailure (Settings schema) :=
  match root.atPath? binding.path with
  | none | some .null => .ok settings
  | some value =>
    store settings binding.member ((schema binding.member).ofJson value)
      ("failed to set field " ++ Text.quoted binding.path ++ " from file " ++ Text.quoted file)

/-- Gives a member the text of its environment variable. -/
def applyVariable [DecidableEq ι] (loader : Loader schema) (surroundings : Surroundings)
    (binding : SettingBinding ι) (settings : Settings schema) :
    Except LoadFailure (Settings schema) :=
  if binding.variableName.isEmpty then .ok settings
  else
    let key := loader.variableKey binding.variableName
    match surroundings.environmentText? key with
    | none => .ok settings
    | some text =>
      store settings binding.member ((schema binding.member).ofText text)
        ("failed to set field " ++ Text.quoted binding.path ++ " from env var " ++ Text.quoted key)

/-- What a reader of JSON tells about a fault, as an error. -/
def parseFault (description : String) : Error :=
  .make .validationFormat (Text.untilNul description)

/-- The object in the file, if there is a file. The path is checked before the
file is looked for, and then the file's extension before it is opened. -/
def readFile (file : String) (surroundings : Surroundings) :
    Except LoadFailure (Option Json) :=
  if FilePath.climbs file then
    .error (.returned
      (failure "file path must not contain directory traversal (..) sequences"))
  else
    match surroundings.entry? file with
    | none => .ok none
    | some entry =>
      let extension := Text.lower (FilePath.extension file)
      if extension ≠ ".json" then
        .error (.returned (failure
          ("unsupported file extension " ++ Text.quoted extension ++ " (use .json)")))
      else
        match entry with
        | .closed => .error (.returned (failure ("failed to read file " ++ Text.quoted file)))
        | .opens stream =>
          match surroundings.readJson stream with
          | .throws exception => .error (.thrown exception)
          | .fault description =>
            .error (.returned (misread (parseFault description)
              ("failed to parse JSON file " ++ Text.quoted file)))
          | .value root =>
            if root.isObject then .ok (some root)
            else
              .error (.returned
                (failure ("JSON file " ++ Text.quoted file ++ " must contain an object")))

/-- The layer of defaults. -/
def fallbackLayer [DecidableEq ι] (loader : Loader schema) (settings : Settings schema) :
    Loading schema :=
  Loading.inOrder applyFallback loader.bindings settings

/-- The layer of the file. -/
def fileLayer [DecidableEq ι] (loader : Loader schema) (surroundings : Surroundings)
    (settings : Settings schema) : Loading schema :=
  if loader.file.isEmpty then ⟨settings, .ok ()⟩
  else
    match readFile loader.file surroundings with
    | .error failure => ⟨settings, .error failure⟩
    | .ok none => ⟨settings, .ok ()⟩
    | .ok (some root) => Loading.inOrder (applyJson loader.file root) loader.bindings settings

/-- The layer of environment variables. -/
def variableLayer [DecidableEq ι] (loader : Loader schema) (surroundings : Surroundings)
    (settings : Settings schema) : Loading schema :=
  Loading.inOrder (loader.applyVariable surroundings) loader.bindings settings

/-- The first required member that is empty is an error, and then the check of
the settings as a whole decides. -/
def validate (loader : Loader schema) (settings : Settings schema) : Except LoadFailure Unit :=
  match loader.bindings.find? fun binding =>
      binding.required && settings.isEmpty binding.member with
  | some binding =>
    .error (.returned (.make .validationRequired
      ("config: required field " ++ Text.quoted binding.path ++ " is empty")))
  | none => loader.check settings

/-! ## Loading -/

/-- Applies all layers to settings in place and validates the outcome. -/
def loadInto [DecidableEq ι] (loader : Loader schema) (surroundings : Surroundings)
    (settings : Settings schema) : Loading schema :=
  (((loader.fallbackLayer settings).andThen (loader.fileLayer surroundings)).andThen
    (loader.variableLayer surroundings)).andThen
    fun settings => ⟨settings, loader.validate settings⟩

/-- Loads settings that start empty. -/
def load [DecidableEq ι] (loader : Loader schema) (surroundings : Surroundings) :
    Except LoadFailure (Settings schema) :=
  let loading := loader.loadInto surroundings Settings.blank
  loading.result.map fun () => loading.settings

end Loader

end AgentKit
