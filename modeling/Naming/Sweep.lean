import Naming.Service

namespace Naming.Sweep

/-- The contexts that a context leads to. One without a record leads nowhere. -/
def links (key : ContextKey) : Request (List ContextKey) := do
  let found ← (Active.during key .list .existing (Active.look fun s => .ok s.contexts)).attempt
  match found with
  | .ok keys => return keys
  | .error (.noContext _) => return []
  | .error failure => throw failure

/-- Visits what the keys in the queue lead to, and gives all that was seen. It gives up when it
would have to visit more than `limit` contexts. -/
def reach : Nat → List ContextKey → List ContextKey → Request (Option (List ContextKey))
  | 0, seen, queue => return if queue.all seen.contains then some seen else none
  | limit + 1, seen, queue =>
    match queue.dropWhile seen.contains with
    | [] => return some seen
    | key :: queue => do
      let next ← links key
      reach limit (key :: seen) (queue ++ next)

/-- Removes the records of these keys, save what is reachable or waits to be bound. -/
def removeOthers (reachable : List ContextKey) : List ContextKey → Request (List ContextKey)
  | [] => return []
  | key :: rest => do
    let unbound ← Request.act (.isUnbound key)
    if reachable.contains key || unbound then removeOthers reachable rest
    else
      Active.during key .destroy .existing Active.remove
      return key :: (← removeOthers reachable rest)

end Sweep

/-- Removes every context that cannot be reached from the root and that no client holds unbound.
The gate is closed meanwhile, so the census taken first bounds the walk. -/
def Service.sweep (s : Service) : Request (List ContextKey) :=
  Request.gated .exclusive do
    let limit ← Request.act .census
    match ← Sweep.reach limit [] [s.root] with
    | none => return []
    | some reachable =>
      let keys ← Request.ofStorage (Job.act .keys)
      let removed ← Sweep.removeOthers reachable keys
      Request.note ⟨.info, .service, "Swept unreachable naming contexts",
        [("removed", .number removed.length)]⟩
      return removed

end Naming
