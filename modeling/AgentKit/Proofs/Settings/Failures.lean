/-
# How loading fails

Loading fails if and only if one of its stages fails, with the failure of the first that
does. An error says which setting could not be read, and why, and nothing that comes later
has a part in it. Apart from the check of the settings, only a file whose reading throws
makes loading throw.
-/

import AgentKit.Proofs.Settings.FilePaths
import AgentKit.Proofs.Settings.Stages

namespace AgentKit

/-! ## Values that cannot be read -/

/-- An error about the form of a value, with no cause of its own. -/
def Error.IsMisfit (error : Error) : Prop :=
  error.code = .validationFormat ∧ error.cause? = none

/-- Reading ends with an error about the form of the value. -/
def IsRefused {α : Type} (result : Except Error α) : Prop :=
  ∃ error, result = .error error ∧ error.IsMisfit

theorem Duration.isMisfit_of_parse {text : String} {error : Error}
    (failed : Duration.parse text = .error error) : error.IsMisfit := by
  unfold Duration.parse at failed
  split at failed
  · cases failed
  · cases failed
    exact ⟨rfl, rfl⟩
  · cases failed
    exact ⟨rfl, rfl⟩

namespace SettingKind

theorem isMisfit_of_misfit {α : Type} {message : String} {error : Error}
    (failed : (misfit message : Except Error α) = .error error) : error.IsMisfit := by
  cases failed
  exact ⟨rfl, rfl⟩

/-- Whatever the kind, a text that is refused has the wrong form. -/
theorem isMisfit_of_ofText {kind : SettingKind} {text : String} {error : Error}
    (failed : kind.ofText text = .error error) : error.IsMisfit := by
  cases kind with
  | text => cases failed
  | flag =>
      change readFlag text = .error error at failed
      unfold readFlag at failed
      split at failed
      · cases failed
      · split at failed
        · cases failed
        · exact isMisfit_of_misfit failed
  | number =>
      change readNumber text = .error error at failed
      unfold readNumber at failed
      split at failed
      · cases failed
      · exact isMisfit_of_misfit failed
  | integer format =>
      change readInteger format text = .error error at failed
      unfold readInteger at failed
      split at failed
      · cases failed
      · exact isMisfit_of_misfit failed
  | duration => exact Duration.isMisfit_of_parse failed
  | list => cases failed

end SettingKind

variable {ι : Type} {schema : ι → SettingKind}

namespace Loader

variable {loader : Loader schema} {surroundings : Surroundings}

/-! ## Failures -/

/-- When a file makes loading fail, and how. A path where nothing stands does not. -/
inductive RefusesFile (file : String) (surroundings : Surroundings) : LoadFailure → Prop
  | /-- The path has two dots in a row, whatever stands there. -/
    climbs (dots : ['.', '.'] <:+: file.toList) :
      RefusesFile file surroundings (.returned
        (failure "file path must not contain directory traversal (..) sequences"))
  | /-- Something stands there under another extension. -/
    extension {entry : FileEntry} (straight : ¬ ['.', '.'] <:+: file.toList)
      (present : surroundings.entry? file = some entry)
      (foreign : ¬ FilePath.EndsInJson file) :
      RefusesFile file surroundings (.returned
        (failure ("unsupported file extension "
          ++ Text.quoted (Text.lower (FilePath.extension file)) ++ " (use .json)")))
  | /-- What stands there cannot be opened. -/
    closed (straight : ¬ ['.', '.'] <:+: file.toList)
      (present : surroundings.entry? file = some .closed)
      (extension : FilePath.EndsInJson file) :
      RefusesFile file surroundings (.returned
        (failure ("failed to read file " ++ Text.quoted file)))
  | /-- The text of the file has a fault. -/
    unparsable {stream : ByteStream} {description : String}
      (straight : ¬ ['.', '.'] <:+: file.toList)
      (present : surroundings.entry? file = some (.opens stream))
      (extension : FilePath.EndsInJson file)
      (unparsable : surroundings.readJson stream = .fault description) :
      RefusesFile file surroundings (.returned
        (misread (parseFault description) ("failed to parse JSON file " ++ Text.quoted file)))
  | /-- Reading it throws, and nothing catches that. -/
    throws {stream : ByteStream} {exception : String}
      (straight : ¬ ['.', '.'] <:+: file.toList)
      (present : surroundings.entry? file = some (.opens stream))
      (extension : FilePath.EndsInJson file)
      (threw : surroundings.readJson stream = .throws exception) :
      RefusesFile file surroundings (.thrown exception)
  | /-- It is JSON, but no object. -/
    root {stream : ByteStream} {root : Json} (straight : ¬ ['.', '.'] <:+: file.toList)
      (present : surroundings.entry? file = some (.opens stream))
      (extension : FilePath.EndsInJson file)
      (parsed : surroundings.readJson stream = .value root) (other : ¬ root.isObject) :
      RefusesFile file surroundings (.returned
        (failure ("JSON file " ++ Text.quoted file ++ " must contain an object")))

theorem readFile_eq_error_iff {file : String} {failure : LoadFailure} :
    readFile file surroundings = .error failure ↔ RefusesFile file surroundings failure := by
  constructor
  · intro failed
    unfold readFile at failed
    by_cases dots : FilePath.climbs file
    · rw [if_pos dots] at failed
      cases failed
      exact .climbs (FilePath.climbs_iff.mp dots)
    · rw [if_neg dots] at failed
      have straight := mt FilePath.climbs_iff.mpr dots
      cases present : surroundings.entry? file with
      | none =>
          simp only [present] at failed
          cases failed
      | some entry =>
          simp only [present] at failed
          split at failed
          · next foreign =>
              cases failed
              exact .extension straight present (mt FilePath.lower_extension_eq_iff.mpr foreign)
          · next extension =>
              have extension := FilePath.lower_extension_eq_iff.mp (Classical.not_not.mp extension)
              cases entry with
              | closed =>
                  cases failed
                  exact .closed straight present extension
              | opens stream =>
                  cases read : surroundings.readJson stream with
                  | throws exception =>
                      simp only [read] at failed
                      cases failed
                      exact .throws straight present extension read
                  | fault description =>
                      simp only [read] at failed
                      cases failed
                      exact .unparsable straight present extension read
                  | value root =>
                      simp only [read] at failed
                      split at failed
                      · cases failed
                      · next other =>
                          cases failed
                          exact .root straight present extension read other
  · intro refused
    unfold readFile
    cases refused with
    | climbs dots => rw [if_pos (FilePath.climbs_iff.mpr dots)]
    | extension straight present foreign =>
        rw [if_neg (mt FilePath.climbs_iff.mp straight)]
        simp only [present, if_pos (mt FilePath.lower_extension_eq_iff.mp foreign)]
    | closed straight present extension =>
        rw [if_neg (mt FilePath.climbs_iff.mp straight)]
        simp only [present, FilePath.lower_extension_eq_iff.mpr extension, ne_eq,
          not_true_eq_false, if_false]
    | unparsable straight present extension read | throws straight present extension read =>
        rw [if_neg (mt FilePath.climbs_iff.mp straight)]
        simp only [present, FilePath.lower_extension_eq_iff.mpr extension, ne_eq,
          not_true_eq_false, if_false, read]
    | root straight present extension read other =>
        rw [if_neg (mt FilePath.climbs_iff.mp straight)]
        simp only [present, FilePath.lower_extension_eq_iff.mpr extension, ne_eq,
          not_true_eq_false, if_false, read, if_neg other]

/-- When a stage fails on the settings it finds, and how. -/
inductive Fails (loader : Loader schema) (surroundings : Surroundings)
    (settings : Settings schema) : LoadStage ι → LoadFailure → Prop
  | /-- The member is empty and its default cannot be read. -/
    fallback {binding : SettingBinding ι} {text : String} {cause : Error}
      (given : binding.fallback = some text) (empty : settings.isEmpty binding.member)
      (unreadable : (schema binding.member).ofText text = .error cause) :
      Fails loader surroundings settings (.fallback binding) (.returned
        (misread cause ("failed to apply default for field " ++ Text.quoted binding.path)))
  | /-- There is a file to look for, and it is refused. -/
    file {failure : LoadFailure} (named : loader.file ≠ "")
      (refused : RefusesFile loader.file surroundings failure) :
      Fails loader surroundings settings .file failure
  | /-- The value in the file cannot be read. -/
    fileValue {binding : SettingBinding ι} {value : Json} {cause : Error}
      (found : loader.fileValue? surroundings binding = some value)
      (unreadable : (schema binding.member).ofJson value = .error cause) :
      Fails loader surroundings settings (.fileValue binding) (.returned
        (misread cause ("failed to set field " ++ Text.quoted binding.path ++ " from file "
          ++ Text.quoted loader.file)))
  | /-- The environment variable cannot be read. -/
    environment {binding : SettingBinding ι} {text : String} {cause : Error}
      (set : loader.variableText? surroundings binding = some text)
      (unreadable : (schema binding.member).ofText text = .error cause) :
      Fails loader surroundings settings (.environment binding) (.returned
        (misread cause ("failed to set field " ++ Text.quoted binding.path ++ " from env var "
          ++ Text.quoted (loader.variableKey binding.variableName))))
  | /-- The member is required and empty. -/
    required {binding : SettingBinding ι} (required : binding.required)
      (empty : settings.isEmpty binding.member) :
      Fails loader surroundings settings (.required binding) (.returned
        (.make .validationRequired
          ("config: required field " ++ Text.quoted binding.path ++ " is empty")))
  | /-- The settings as a whole are refused. -/
    check {failure : LoadFailure} (refused : loader.check settings = .error failure) :
      Fails loader surroundings settings .check failure

/-! ## What errors tell -/

variable [DecidableEq ι]

/-- A place that has something for a member makes a stage fail if it cannot be read. -/
theorem elim_store_eq_error_iff {α : Type} {place : Option α} {settings : Settings schema}
    {member : ι} {read : α → Except Error (schema member).Value} {message : String}
    {failure : LoadFailure} :
    (place.elim (.ok settings) fun found => store settings member (read found) message) =
        .error failure ↔
      ∃ found cause, place = some found ∧ read found = .error cause ∧
        .returned (misread cause message) = failure := by
  cases place with
  | none => simp
  | some found => cases value : read found <;> simp [store, value]

theorem runStage_file_eq_error_iff {settings : Settings schema} {failure : LoadFailure} :
    loader.runStage surroundings .file settings = .error failure ↔
      loader.file ≠ "" ∧ RefusesFile loader.file surroundings failure := by
  rw [← readFile_eq_error_iff, runStage]
  by_cases unnamed : loader.file = ""
  · simp [unnamed]
  · rw [if_neg (mt String.isEmpty_iff.mp unnamed)]
    cases readFile loader.file surroundings <;> simp [Except.map, unnamed]

/-- A stage fails in the ways it can fail. -/
theorem runStage_eq_error_iff {stage : LoadStage ι} {settings : Settings schema}
    {failure : LoadFailure} :
    loader.runStage surroundings stage settings = .error failure ↔
      loader.Fails surroundings settings stage failure := by
  constructor
  · intro failed
    cases stage with
    | fallback binding =>
        rw [runStage, applyFallback_eq, elim_store_eq_error_iff] at failed
        obtain ⟨text, cause, given, unreadable, rfl⟩ := failed
        unfold fallbackText? at given
        split at given
        · exact .fallback given ‹_› unreadable
        · cases given
    | file =>
        obtain ⟨named, refused⟩ := runStage_file_eq_error_iff.mp failed
        exact .file named refused
    | fileValue binding =>
        rw [runStage_fileValue, elim_store_eq_error_iff] at failed
        obtain ⟨value, cause, found, unreadable, rfl⟩ := failed
        exact .fileValue found unreadable
    | environment binding =>
        rw [runStage, applyVariable_eq, elim_store_eq_error_iff] at failed
        obtain ⟨text, cause, set, unreadable, rfl⟩ := failed
        exact .environment set unreadable
    | required binding =>
        simp only [runStage, demand] at failed
        split at failed
        · rename_i lacking
          cases failed
          obtain ⟨required, empty⟩ := Bool.and_eq_true_iff.mp lacking
          exact .required required empty
        · cases failed
    | check =>
        simp only [runStage] at failed
        cases refused : loader.check settings with
        | ok _ =>
            rw [refused] at failed
            cases failed
        | error fault =>
            rw [refused] at failed
            cases failed
            exact .check refused
  · intro fails
    cases fails with
    | @fallback binding text cause given empty unreadable =>
        rw [runStage, applyFallback_eq, elim_store_eq_error_iff]
        refine ⟨text, cause, ?_, unreadable, rfl⟩
        rw [fallbackText?, ← given]
        exact if_pos empty
    | file named refused => exact runStage_file_eq_error_iff.mpr ⟨named, refused⟩
    | @fileValue binding value cause found unreadable =>
        rw [runStage_fileValue, elim_store_eq_error_iff]
        exact ⟨value, cause, found, unreadable, rfl⟩
    | @environment binding text cause set unreadable =>
        rw [runStage, applyVariable_eq, elim_store_eq_error_iff]
        exact ⟨text, cause, set, unreadable, rfl⟩
    | required required empty =>
        simp only [runStage, demand]
        rw [required, empty]
        rfl
    | check refused =>
        simp only [runStage]
        rw [refused]
        rfl

/-- Loading comes to its first failing stage, with the failure of that. -/
theorem loadInto_eq_error_iff {first last : Settings schema} {failure : LoadFailure} :
    loader.loadInto surroundings first = ⟨last, .error failure⟩ ↔
      ∃ earlier stage later, loader.stages = earlier ++ stage :: later ∧
        loader.runStages surroundings earlier first = ⟨last, .ok ()⟩ ∧
        loader.Fails surroundings last stage failure := by
  simp only [loadInto_eq_runStages, runStages_eq_error_iff, runStage_eq_error_iff]

end Loader

end AgentKit
