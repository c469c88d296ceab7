/-
# One chain behind every view

An error with causes is looked at in many ways: searched for a code, asked for its root,
written in a line, written as JSON, compared. Each goes down the causes by itself. Behind all
of them is one list, the error and what unwrapping leads to, and each of them is a plain
reading of that list: one of its elements, the last, all joined, all nested, all side by
side.

Wrapping puts an element before the list and keeps the rest, so that the last element stays
the last, and every code in the list stays in it.
-/

import Mathlib.Data.List.Forall2
import AgentKit.Proofs.Error.WireForm

namespace AgentKit

namespace Json

/-- What is reached by going down some number of causes in the JSON of an error. -/
def causeAt? (json : Json) : (depth : Nat) → Option Json
  | 0 => some json
  | depth + 1 => (json.causeAt? depth).bind (·.get? "cause")

/-- A number, NaNs among them. -/
def IsNumber (json : Json) : Prop :=
  (∃ n, json = .int n) ∨ ∃ x, json = .float x

/-- A floating-point number that is none. -/
def IsNaN (json : Json) : Prop :=
  ∃ x : Binary64, json = .float x ∧ x.isNaN

theorem isUnordered_iff {a b : Json} :
    a.isUnordered b ↔ a.IsNumber ∧ b.IsNumber ∧ (a.IsNaN ∨ b.IsNaN) := by
  cases a <;> cases b <;> simp [isUnordered, IsNumber, IsNaN]

end Json

namespace Error

/-- The error that unwrapping leads to, some number of times. -/
def unwrapped? (error : Error) : (depth : Nat) → Option Error
  | 0 => some error
  | depth + 1 => (error.unwrapped? depth).bind cause?

/-- The error and the causes below it, outermost first. -/
def levels : Error → List Error
  | root report => [root report]
  | wrap report cause => wrap report cause :: cause.levels

variable {error other : Error}

/-! ## The list -/

theorem levels_ne_nil (error : Error) : error.levels ≠ [] := by
  cases error <;> exact List.cons_ne_nil _ _

/-- Each element is followed by what it unwraps to, and the last one by nothing. -/
theorem getElem?_levels_succ (error : Error) (depth : Nat) :
    error.levels[depth + 1]? = error.levels[depth]?.bind cause? := by
  induction depth generalizing error with
  | zero =>
      cases error with
      | root report => rfl
      | wrap report cause => cases cause <;> rfl
  | succ depth ih =>
      cases error with
      | root report => rfl
      | wrap report cause => exact ih cause

theorem getElem?_levels (error : Error) (depth : Nat) :
    error.levels[depth]? = error.unwrapped? depth := by
  induction depth with
  | zero => cases error <;> rfl
  | succ depth ih => rw [getElem?_levels_succ, ih, unwrapped?]

theorem chain_eq_map (error : Error) : error.chain = error.levels.map report := by
  induction error with
  | root report => rfl
  | wrap report cause ih => rw [chain, ih, levels, List.map_cons, Error.report]

/-! ## Its readings -/

theorem chainHas_iff_mem_levels {target : ErrorCode} :
    error.chainHas target ↔ ∃ level ∈ error.levels, level.code = target := by
  simp [chainHas_iff, chain_eq_map, code]

theorem getLast?_levels (error : Error) : error.levels.getLast? = some error.rootCause := by
  induction error with
  | root report => rfl
  | wrap report cause ih =>
      rw [levels, List.getLast?_cons, ih, rootCause]
      rfl

theorem text_eq_intercalate (error : Error) :
    error.text = ": ".intercalate (error.levels.map fun level => level.report.text) := by
  induction error with
  | root report => exact String.intercalate_singleton.symm
  | wrap report cause ih =>
      have below : (cause.levels.map fun level => level.report.text) ≠ [] := by
        simpa using cause.levels_ne_nil
      rw [levels, List.map_cons, String.intercalate_cons_of_ne_nil below, ← ih]
      rfl

theorem get?_cause_toJson (error : Error) :
    error.toJson.get? "cause" = error.cause?.map toJson :=
  get?_toJson (by simp [fields])

/-- The JSON of an error has that of each element at its depth, and nothing below the last. -/
theorem causeAt?_toJson (error : Error) (depth : Nat) :
    error.toJson.causeAt? depth = error.levels[depth]?.map toJson := by
  induction depth with
  | zero => cases error <;> rfl
  | succ depth ih =>
      rw [Json.causeAt?, ih, getElem?_levels_succ, Option.bind_map, Option.map_bind]
      exact Option.bind_congr fun level _ => level.get?_cause_toJson

/-- Code and message of one element stand in its own JSON. -/
theorem heading_toJson (error : Error) :
    error.toJson.get? "code" = some (.str error.code.wire) ∧
      error.toJson.get? "message" = some (.str error.message) :=
  ⟨get?_toJson (by simp [fields, code]), get?_toJson (by simp [fields, message])⟩

theorem same_iff_forall₂ :
    error.same other ↔
      List.Forall₂ (fun level level' => level.report.same level'.report)
        error.levels other.levels := by
  induction error generalizing other with
  | root report =>
      cases other with
      | root report' => simp [same, levels, Error.report]
      | wrap report' cause' => simp [same, levels, levels_ne_nil cause']
  | wrap report cause ih =>
      cases other with
      | root report' => simp [same, levels, levels_ne_nil cause]
      | wrap report' cause' => simp [same, levels, Error.report, ih]

/-! ## Wrapping -/

/-- The error wrapped in one code and message after the other. -/
def wrappedIn (error : Error) (wrappers : List (ErrorCode × String)) : Error :=
  wrappers.foldl (fun error wrapper => error.wrapping wrapper.1 wrapper.2) error

/-- The chain is still there, below what it was wrapped in. -/
theorem levels_suffix_wrappedIn (error : Error) (wrappers : List (ErrorCode × String)) :
    error.levels <:+ (error.wrappedIn wrappers).levels := by
  induction wrappers generalizing error with
  | nil => exact List.suffix_refl _
  | cons wrapper wrappers ih =>
      have wrapped : (error.wrapping wrapper.1 wrapper.2).levels =
          error.wrapping wrapper.1 wrapper.2 :: error.levels := rfl
      have here : error.levels <:+ (error.wrapping wrapper.1 wrapper.2).levels :=
        wrapped ▸ List.suffix_cons _ _
      exact here.trans (ih _)

theorem rootCause_wrappedIn (error : Error) (wrappers : List (ErrorCode × String)) :
    (error.wrappedIn wrappers).rootCause = error.rootCause := by
  induction wrappers generalizing error with
  | nil => rfl
  | cons wrapper wrappers ih => exact ih (error.wrapping wrapper.1 wrapper.2)

/-- Every view of an error reads the list of the error and its causes: the search for a code,
the root cause, the line of text, the nested JSON and the comparison, which takes a NaN among
the details to agree with any number. Wrapping the error, any number of times, keeps its
root cause and every code that was found. -/
theorem views_read_one_chain (error : Error) :
    (∀ depth, error.levels[depth]? = error.unwrapped? depth) ∧
    (∀ target, error.chainHas target ↔ ∃ level ∈ error.levels, level.code = target) ∧
    error.levels.getLast? = some error.rootCause ∧
    error.text = ": ".intercalate
      (error.levels.map fun level => level.code.wire ++ ": " ++ level.message) ∧
    (∀ depth,
      ((error.toJson.causeAt? depth).map fun json => (json.get? "code", json.get? "message")) =
        error.levels[depth]?.map fun level =>
          (some (.str level.code.wire), some (.str level.message))) ∧
    (∀ other, error.same other ↔
      List.Forall₂ (fun level level' => level.code = level'.code ∧
        level.message = level'.message ∧
        (level.details.same level'.details ∨
          level.details.IsNumber ∧ level'.details.IsNumber ∧
            (level.details.IsNaN ∨ level'.details.IsNaN)))
        error.levels other.levels) ∧
    (∀ wrappers, (error.wrappedIn wrappers).rootCause = error.rootCause ∧
      ∀ target, error.chainHas target → (error.wrappedIn wrappers).chainHas target) := by
  refine ⟨error.getElem?_levels, fun target => chainHas_iff_mem_levels, error.getLast?_levels,
    error.text_eq_intercalate, ?_, ?_, ?_⟩
  · intro depth
    rw [causeAt?_toJson, Option.map_map]
    apply Option.map_congr
    intro level _
    exact Prod.ext level.heading_toJson.1 level.heading_toJson.2
  · intro other
    simp only [same_iff_forall₂, Report.same_iff, Json.isUnordered_iff]
    rfl
  · intro wrappers
    refine ⟨error.rootCause_wrappedIn wrappers, fun target found => ?_⟩
    obtain ⟨level, inside, coded⟩ := chainHas_iff_mem_levels.mp found
    have kept := (error.levels_suffix_wrappedIn wrappers).subset inside
    exact chainHas_iff_mem_levels.mpr ⟨level, kept, coded⟩

end Error

end AgentKit
