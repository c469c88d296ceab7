/-
# Forwarding a request

A request is forwarded by one service after another. Whatever the length of the chain that
arrived, from the first forwarding on it has the newest callers of all there have been, as
many as a chain may have. A chain that arrives longer is cut by the first forwarding, not
before, so the law needs at least one.
-/

import AgentKit.Identity.CallChain

namespace AgentKit.CallChain

/-- The chain after services have forwarded the request, one after the other. -/
def appendAll (chain : CallChain) (callers : List Caller) : CallChain :=
  callers.foldl append chain

variable (chain : CallChain) (callers added : List Caller) (caller : Caller)

theorem appendAll_concat :
    chain.appendAll (added ++ [caller]) = (chain.appendAll added).append caller :=
  List.foldl_append ..

theorem newest_suffix : newest callers <:+ callers :=
  List.drop_suffix ..

/-- What was dropped before would be dropped later anyway. -/
theorem newest_newest_append : newest (newest callers ++ added) = newest (callers ++ added) := by
  have cut : callers.length - maxDepth ≤ callers.length := Nat.sub_le ..
  simp only [newest]
  rw [← List.drop_append_of_le_length cut, List.drop_drop]
  congr 1
  simp only [List.length_drop, List.length_append]
  omega

variable {added} in
theorem callers_appendAll (forwarded : added ≠ []) :
    (chain.appendAll added).callers = newest (chain.callers ++ added) := by
  induction added generalizing chain with
  | nil => exact absurd rfl forwarded
  | cons caller rest ih =>
      cases rest with
      | nil => rfl
      | cons next rest =>
          calc
            _ = newest (newest (chain.callers ++ [caller]) ++ next :: rest) :=
              ih (chain.append caller) nofun
            _ = newest (chain.callers ++ [caller] ++ next :: rest) := newest_newest_append ..
            _ = newest (chain.callers ++ caller :: next :: rest) := by
              rw [List.append_assoc, List.singleton_append]

/-- Whoever forwards it, a request keeps its originator. -/
theorem origin_appendAll :
    (chain.appendAll added).originalId = chain.originalId ∧
      (chain.appendAll added).originalType = chain.originalType := by
  induction added generalizing chain with
  | nil => exact ⟨rfl, rfl⟩
  | cons caller added ih => exact ih (chain.append caller)

/-- When services have forwarded a request, its chain has the last thirty-two of all callers
there have been, those of the chain that arrived first, or all of them if there are fewer.
Its originator is the same, and each service on the way has made the chain one longer or
has found it, or left it, at its full depth. -/
theorem forwarding_keeps_newest (chain : CallChain) {added : List Caller}
    (forwarded : added ≠ []) :
    let later := chain.appendAll added
    let all := chain.callers ++ added
    later.callers <:+ all ∧ later.callers.length = min 32 all.length ∧
      later.originalId = chain.originalId ∧ later.originalType = chain.originalType ∧
      ∀ earlier caller rest, added = earlier ++ caller :: rest →
        let before := (chain.appendAll earlier).depth
        (chain.appendAll (earlier ++ [caller])).depth =
          if 32 < before then 32 else min 32 (before + 1) := by
  intro later all
  have newestOfAll : later.callers = newest all := chain.callers_appendAll forwarded
  obtain ⟨originalId, originalType⟩ := chain.origin_appendAll added
  refine ⟨?suffix, ?length, originalId, originalType, fun earlier caller rest _ => ?depth⟩
  case suffix => exact newestOfAll ▸ newest_suffix all
  case length => rw [newestOfAll, length_newest, Nat.min_comm, maxDepth]
  case depth =>
    dsimp only
    rw [appendAll_concat, depth_append, maxDepth]
    split <;> omega

/-- A chain that has arrived with forty callers, more than forwarding leaves it. -/
def overlongChain : CallChain where
  originalId := "user-1"
  originalType := .user
  callers := List.replicate 40 ⟨"gateway", "svc-gateway", .service⟩

theorem forwarding_keeps_newest_of_overlongChain :
    let added : List Caller := [⟨"orders", "svc-orders", .service⟩, ⟨"audit", "bot-7", .agent⟩]
    let later := overlongChain.appendAll added
    added ≠ [] ∧ later.callers <:+ overlongChain.callers ++ added ∧
      later.callers.length = 32 ∧
      later.callers = List.replicate 30 ⟨"gateway", "svc-gateway", .service⟩ ++ added ∧
      (overlongChain.appendAll added.dropLast).depth = 32 := by
  intro added later
  have forwarded : added ≠ [] := nofun
  obtain ⟨suffix, length, _, _, depth⟩ := overlongChain.forwarding_keeps_newest forwarded
  exact ⟨forwarded, suffix, length, rfl, depth [] _ _ rfl⟩

end AgentKit.CallChain
