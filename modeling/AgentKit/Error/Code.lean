/-
# Error codes

A code says what kind of thing went wrong. Every code belongs to one category,
which decides its HTTP status and whether a caller can do something about it. A
code travels as its wire text, the category's mark and a number. Peers may send
numbers that stand for no code; they are kept as `unlisted`, count as internal
and have no wire text of their own.
-/

namespace AgentKit

/-- What kind of thing went wrong. -/
inductive ErrorCode
  | validation
  | validationRequired
  | validationFormat
  | validationRange
  | authentication
  | authenticationExpired
  | authenticationInvalid
  | authorization
  | authorizationDenied
  | authorizationInsufficientScope
  | notFound
  | notFoundUser
  | notFoundResource
  | conflict
  | conflictAlreadyExists
  | conflictVersionMismatch
  | internal
  | internalDatabase
  | internalConfiguration
  | unavailable
  | unavailableDependency
  | unavailableOverloaded
  | timeout
  | timeoutDatabase
  | timeoutDependency
  | unlisted (index : Int)
  deriving DecidableEq, Inhabited

/-- The groups of error codes. -/
inductive ErrorCategory
  | validation
  | authentication
  | authorization
  | notFound
  | conflict
  | internal
  | unavailable
  | timeout
  deriving DecidableEq

namespace ErrorCategory

/-- The categories in the order of their numbers. -/
def all : List ErrorCategory :=
  [.validation, .authentication, .authorization, .notFound, .conflict, .internal,
   .unavailable, .timeout]

/-- The mark that starts the wire text of the category's codes. -/
def mark : ErrorCategory → String
  | validation => "VAL"
  | authentication => "AUTH"
  | authorization => "AUTHZ"
  | notFound => "NF"
  | conflict => "CONF"
  | internal => "INT"
  | unavailable => "UNAVAIL"
  | timeout => "TIMEOUT"

/-- The mark of the category with a number; a number of no category has the mark
of internal errors. -/
def markOfIndex (index : Int) : String :=
  match all[index.toNat]? with
  | some category => if 0 ≤ index then category.mark else internal.mark
  | none => internal.mark

def httpStatus : ErrorCategory → Nat
  | validation => 400
  | authentication => 401
  | authorization => 403
  | notFound => 404
  | conflict => 409
  | internal => 500
  | unavailable => 503
  | timeout => 504

/-- The caller has to change something before trying again. -/
def isClient : ErrorCategory → Bool
  | validation | authentication | authorization | notFound | conflict => true
  | internal | unavailable | timeout => false

/-- The fault lies with the service. -/
def isServer (category : ErrorCategory) : Bool :=
  !category.isClient

/-- Trying again may succeed without any change. -/
def isRetryable : ErrorCategory → Bool
  | timeout | unavailable => true
  | _ => false

end ErrorCategory

namespace ErrorCode

/-- The codes in the order of their numbers. -/
def all : List ErrorCode :=
  [.validation, .validationRequired, .validationFormat, .validationRange, .authentication,
   .authenticationExpired, .authenticationInvalid, .authorization, .authorizationDenied,
   .authorizationInsufficientScope, .notFound, .notFoundUser, .notFoundResource, .conflict,
   .conflictAlreadyExists, .conflictVersionMismatch, .internal, .internalDatabase,
   .internalConfiguration, .unavailable, .unavailableDependency, .unavailableOverloaded,
   .timeout, .timeoutDatabase, .timeoutDependency]

/-- The text that stands for the code in messages and on the wire. -/
def wire : ErrorCode → String
  | validation => "VAL_001"
  | validationRequired => "VAL_002"
  | validationFormat => "VAL_003"
  | validationRange => "VAL_004"
  | authentication => "AUTH_001"
  | authenticationExpired => "AUTH_002"
  | authenticationInvalid => "AUTH_003"
  | authorization => "AUTHZ_001"
  | authorizationDenied => "AUTHZ_002"
  | authorizationInsufficientScope => "AUTHZ_003"
  | notFound => "NF_001"
  | notFoundUser => "NF_002"
  | notFoundResource => "NF_003"
  | conflict => "CONF_001"
  | conflictAlreadyExists => "CONF_002"
  | conflictVersionMismatch => "CONF_003"
  | internal => "INT_001"
  | internalDatabase => "INT_002"
  | internalConfiguration => "INT_003"
  | unavailable => "UNAVAIL_001"
  | unavailableDependency => "UNAVAIL_002"
  | unavailableOverloaded => "UNAVAIL_003"
  | timeout => "TIMEOUT_001"
  | timeoutDatabase => "TIMEOUT_002"
  | timeoutDependency => "TIMEOUT_003"
  | unlisted _ => "UNKNOWN"

/-- The number of the code. -/
def index : ErrorCode → Int
  | validation => 0
  | validationRequired => 1
  | validationFormat => 2
  | validationRange => 3
  | authentication => 4
  | authenticationExpired => 5
  | authenticationInvalid => 6
  | authorization => 7
  | authorizationDenied => 8
  | authorizationInsufficientScope => 9
  | notFound => 10
  | notFoundUser => 11
  | notFoundResource => 12
  | conflict => 13
  | conflictAlreadyExists => 14
  | conflictVersionMismatch => 15
  | internal => 16
  | internalDatabase => 17
  | internalConfiguration => 18
  | unavailable => 19
  | unavailableDependency => 20
  | unavailableOverloaded => 21
  | timeout => 22
  | timeoutDatabase => 23
  | timeoutDependency => 24
  | unlisted index => index

/-- The code with a number. -/
def ofIndex (index : Int) : ErrorCode :=
  (all.find? fun code => code.index = index).getD (unlisted index)

/-- The code with a wire text. -/
def ofWire? (text : String) : Option ErrorCode :=
  all.find? fun code => code.wire = text

theorem ofWire?_wire {code : ErrorCode} (listed : code ∈ all) :
    ofWire? code.wire = some code := by
  revert code
  decide

/-- The category a code belongs to; numbers that stand for no code count as
internal. -/
def category : ErrorCode → ErrorCategory
  | validation | validationRequired | validationFormat | validationRange => .validation
  | authentication | authenticationExpired | authenticationInvalid => .authentication
  | authorization | authorizationDenied | authorizationInsufficientScope => .authorization
  | notFound | notFoundUser | notFoundResource => .notFound
  | conflict | conflictAlreadyExists | conflictVersionMismatch => .conflict
  | internal | internalDatabase | internalConfiguration | unlisted _ => .internal
  | unavailable | unavailableDependency | unavailableOverloaded => .unavailable
  | timeout | timeoutDatabase | timeoutDependency => .timeout

end ErrorCode

end AgentKit
