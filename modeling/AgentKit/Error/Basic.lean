/-
# Errors with causes

An error is a report, a code with a message and structured details, that may
wrap the error that caused it. Reading down the causes gives the chain of the
error's reports, outermost first. Predicates about kinds of errors look at the
outermost report only; `chainHas` searches the whole chain.
-/

import AgentKit.Error.Code
import AgentKit.Json.Basic

namespace AgentKit

/-- One level of an error. -/
structure Report where
  code : ErrorCode
  message : String
  details : Json := .empty
  deriving Inhabited

namespace Report

/-- Code and message of one level. -/
def text (report : Report) : String :=
  report.code.wire ++ ": " ++ report.message

/-- Equality of one level: code and message are the same, and the details do not differ,
as a NaN differs from no number. -/
def same (a b : Report) : Bool :=
  a.code = b.code && a.message = b.message && !a.details.differs b.details

/-- The fields of one level. Details are only written if they are an object
with fields. -/
def fields (report : Report) : List (String × Json) :=
  let base := [("code", Json.str report.code.wire), ("message", Json.str report.message)]
  match report.details with
  | .obj (field :: fields) => base ++ [("details", .obj (field :: fields))]
  | _ => base

end Report

/-- A report, possibly with the error that caused it. -/
inductive Error
  | root (report : Report)
  | wrap (report : Report) (cause : Error)
  deriving Inhabited

namespace Error

/-- The outermost report. -/
def report : Error → Report
  | root report => report
  | wrap report _ => report

/-- The direct cause. -/
def cause? : Error → Option Error
  | root _ => none
  | wrap _ cause => some cause

/-- The same causes under another outermost report. -/
def withReport (error : Error) (report : Report) : Error :=
  match error with
  | root _ => root report
  | wrap _ cause => wrap report cause

def code (error : Error) : ErrorCode := error.report.code

def message (error : Error) : String := error.report.message

def details (error : Error) : Json := error.report.details

def category (error : Error) : ErrorCategory := error.code.category

/-- An error without cause and details. -/
def make (code : ErrorCode) (message : String) : Error :=
  root ⟨code, message, .empty⟩

/-- Gives an error that happened below a new classification and message. -/
def wrapping (cause : Error) (code : ErrorCode) (message : String) : Error :=
  wrap ⟨code, message, .empty⟩ cause

/-! ## Reading the chain -/

/-- The reports of an error and its causes, outermost first. -/
def chain : Error → List Report
  | root report => [report]
  | wrap report cause => report :: cause.chain

/-- The innermost error. -/
def rootCause : Error → Error
  | root report => root report
  | wrap _ cause => cause.rootCause

/-- Whether the error or one of its causes has a code. -/
def chainHas (target : ErrorCode) : Error → Bool
  | root report => report.code = target
  | wrap report cause => report.code = target || cause.chainHas target

/-- The levels of the chain in one line. -/
def text : Error → String
  | root report => report.text
  | wrap report cause => report.text ++ ": " ++ cause.text

theorem chain_eq_cons (error : Error) :
    error.chain = error.report :: (error.cause?.map chain).getD [] := by
  cases error <;> rfl

theorem chainHas_iff {target : ErrorCode} {error : Error} :
    error.chainHas target ↔ ∃ report ∈ error.chain, report.code = target := by
  induction error with
  | root report => simp [chainHas, chain]
  | wrap report cause ih => simp [chainHas, chain, ih]

/-- Equality of errors, level by level down to the root. -/
def same : Error → Error → Bool
  | root a, root b => a.same b
  | wrap a cause, wrap b other => a.same b && cause.same other
  | _, _ => false

/-! ## Wire form -/

/-- An error as JSON, with its cause nested inside. -/
def toJson : Error → Json
  | root report => Json.object (report.fields)
  | wrap report cause => Json.object (report.fields ++ [("cause", cause.toJson)])

end Error

end AgentKit
