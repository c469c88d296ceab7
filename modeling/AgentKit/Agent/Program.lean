/-
# What hooks do

A hook is a program that is given the context of the call. It can ask for
anything that can be asked of agents, its own one included, cancel contexts,
look whether its context is done, and go on as the answers suggest. At last it
ends in one of the ways a hook can end. Which program is run may depend on how
often the hook has been entered before.

Scripts are the programs written as lists of actions.
-/

import AgentKit.Agent.Operation

namespace AgentKit

/-- What can be asked of an agent, which is named, as are contexts. -/
inductive Request
  | operate (agent : String) (operation : Operation) (context : String)
  | setState (agent : String) (target : AgentState)
  | health (agent : String)
  | state (agent : String)
  | info (agent : String)
  | identity (agent : String)
  | capabilities (agent : String)
  | race (agent : String) (callers : Nat) (target : AgentState)

/-- The answers. A race is a number of direct changes of state at once, told by
how many of them succeeded and failed. -/
inductive Reply
  | done (result : Except Error Unit)
  | state (state : AgentState)
  | info (info : AgentInfo)
  | identity (id name version : String)
  | capabilities (capabilities : List Capability)
  | race (wins conflicts : Nat)

/-- What a hook does from some point on. -/
inductive Program
  | finish (outcome : HookOutcome)
  | cancel (context : String) (next : Program)
  | look (next : Option Error → Program)
  | ask (request : Request) (next : Reply → Program)

/-- A hook, registered under an agent's name, with its program for each time it
is entered, counted from zero. -/
structure Hook where
  owner : String
  program : Nat → Program

/-- The actions of a script. -/
inductive Action
  | fail (error : Error)
  | throw (text : String)
  | throwOther
  | cancel (context : String)
  | checkContext
  | ask (request : Request)

namespace Action

/-- An action followed by a program. Failing and throwing end the hook, and so
does checking a context that is done. -/
def followedBy (next : Program) : Action → Program
  | fail error => .finish (.returned (.error error))
  | throw text => .finish (.threw text)
  | throwOther => .finish .threwOther
  | cancel context => .cancel context next
  | checkContext =>
    .look fun
      | some error => .finish (.returned (.error error))
      | none => next
  | ask request => .ask request fun _ => next

end Action

namespace Program

/-- A hook that does nothing. -/
def succeed : Program := .finish (.returned (.ok ()))

/-- The program of a script, which succeeds at its end. -/
def ofScript (script : List Action) : Program :=
  script.foldr (fun action next => action.followedBy next) succeed

end Program

namespace Hook

/-- A hook with a script for each time it is entered; the last one is used again
when there are no more. -/
def ofScripts (owner : String) (scripts : List (List Action)) : Hook where
  owner := owner
  program entries := Program.ofScript ((scripts[entries]?.or scripts.getLast?).getD [])

end Hook

end AgentKit
