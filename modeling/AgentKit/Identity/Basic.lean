/-
# Identities

An identity is the authenticated entity behind a request: a service with its
permissions, a user with theirs, or a plain identity that only has claims and
may do nothing. Identities do not change once they are made, and services and
users cannot be made without an id and the name they are known by.
-/

import AgentKit.Error.Basic
import AgentKit.Json.Decode

namespace AgentKit

/-- The kinds of entities. A number that stands for no kind is kept as
`unlisted`. -/
inductive IdentityType
  | user
  | service
  | agent
  | system
  | unlisted (index : Int)
  deriving DecidableEq

namespace IdentityType

/-- The kinds in the order of their numbers. -/
def all : List IdentityType := [user, service, agent, system]

def name : IdentityType → String
  | user => "user"
  | service => "service"
  | agent => "agent"
  | system => "system"
  | unlisted _ => "invalid"

def index : IdentityType → Int
  | user => 0
  | service => 1
  | agent => 2
  | system => 3
  | unlisted index => index

/-- The kind with a number. -/
def ofIndex (index : Int) : IdentityType :=
  (all.find? fun type => type.index = index).getD (unlisted index)

/-- The kind with a name. -/
def ofName? (name : String) : Option IdentityType :=
  all.find? fun type => type.name = name

def isValid (type : IdentityType) : Bool :=
  all.contains type

def toJson (type : IdentityType) : Json :=
  .str type.name

def ofJson : Json → Decoded IdentityType
  | .str name =>
    match ofName? name with
    | some type => .ok type
    | none => .error (.invalid ("unknown identity type " ++ Text.quoted name))
  | _ => .error (.invalid "identity type must be a JSON string")

end IdentityType

/-- Leave to perform one action on one resource. -/
structure Permission where
  resource : String
  action : String
  deriving DecidableEq

namespace Permission

/-- The part of a permission that stands for every resource or action. -/
def wildcard : String := "*"

/-- Whether a permission covers an action on a resource. -/
def covers (permission : Permission) (resource action : String) : Bool :=
  (permission.resource = wildcard || permission.resource = resource)
    && (permission.action = wildcard || permission.action = action)

def toJson (permission : Permission) : Json :=
  .object [("resource", .str permission.resource), ("action", .str permission.action)]

def ofJson (value : Json) : Decoded Permission := do
  let resource ← value.requiredText "resource"
  let action ← value.requiredText "action"
  return ⟨resource, action⟩

end Permission

/-- The claims of an identity are an object; any other value counts as none. -/
def claimsOf (claims : Json) : Json :=
  if claims.isObject then claims else .empty

/-- An authenticated entity. -/
inductive Identity
  | basic (id : String) (type : IdentityType) (claims : Json)
  | service (id serviceName nameSpace : String) (claims : Json) (permissions : List Permission)
  | user (id email displayName : String) (claims : Json) (permissions : List Permission)

namespace Identity

/-- An identity with claims only. -/
def makeBasic (id : String) (type : IdentityType) (claims : Json) : Identity :=
  basic id type (claimsOf claims)

/-- The identity of a service. -/
def makeService (id serviceName nameSpace : String) (claims : Json)
    (permissions : List Permission) : Except Error Identity :=
  if id.isEmpty then
    .error (.make .validationRequired "auth: service identity id must not be empty")
  else if serviceName.isEmpty then
    .error (.make .validationRequired "auth: service identity service_name must not be empty")
  else .ok (service id serviceName nameSpace (claimsOf claims) permissions)

/-- The identity of a user. -/
def makeUser (id email displayName : String) (claims : Json)
    (permissions : List Permission) : Except Error Identity :=
  if id.isEmpty then
    .error (.make .validationRequired "auth: user identity id must not be empty")
  else if email.isEmpty then
    .error (.make .validationRequired "auth: user identity email must not be empty")
  else .ok (user id email displayName (claimsOf claims) permissions)

def id : Identity → String
  | basic id .. => id
  | service id .. => id
  | user id .. => id

def type : Identity → IdentityType
  | basic _ type _ => type
  | service .. => .service
  | user .. => .user

def claims : Identity → Json
  | basic _ _ claims => claims
  | service _ _ _ claims _ => claims
  | user _ _ _ claims _ => claims

def permissions : Identity → List Permission
  | basic .. => []
  | service _ _ _ _ permissions => permissions
  | user _ _ _ _ permissions => permissions

/-- Whether one of the identity's permissions covers an action on a resource. -/
def may (identity : Identity) (resource action : String) : Bool :=
  identity.permissions.any fun permission => permission.covers resource action

end Identity

end AgentKit
