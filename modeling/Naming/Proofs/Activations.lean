import Naming.Proofs.Disks
import Naming.Proofs.Runs

namespace Naming

variable {α β : Type}

namespace LockTable

/-- No lock is held or waited for. -/
def Idle (t : LockTable) : Prop := t = { fresh := t.fresh }

/-- The table in which one request holds the lock of one key. -/
def single (id : Nat) (key : ContextKey) (access : Access) : LockTable :=
  { table := [(key, id)]
    locks := [Lock.enter { id := id, references := 1 } access]
    fresh := id + 1 }

theorem refer_idle (id : Nat) (key : ContextKey) :
    ({ fresh := id } : LockTable).refer key =
      (id, { table := [(key, id)], locks := [{ id := id, references := 1 }], fresh := id + 1 }) :=
  rfl

theorem enter_single (id : Nat) (key : ContextKey) (access : Access) :
    LockTable.enter?
      { table := [(key, id)], locks := [{ id := id, references := 1 }], fresh := id + 1 }
      id access = some (single id key access) := by
  cases access <;> simp [enter?, find?, Lock.isFree, update, single]

theorem release_single (id : Nat) (key : ContextKey) (access : Access) :
    ((single id key access).leave id access).releaseIdle key = { fresh := id + 1 } := by
  cases access <;> simp [single, leave, update, releaseIdle, find?, Lock.enter, Lock.leave]

theorem idle_release_single (id : Nat) (key : ContextKey) (access : Access) :
    (((single id key access).leave id access).releaseIdle key).Idle := by
  rw [release_single]
  rfl

end LockTable

namespace Server

/-- The bindings that an activation finds, and whether they still have to be saved. -/
def found (s : Server) (key : ContextKey) (intent : Intent) :
    Except Failure (BindingSet × Bool) :=
  match s.memory.resident.get? key with
  | some bindings => .ok (bindings, false)
  | none =>
    match (s.store.load key).1, intent with
    | .error failure, _ => .error (.ofStorage failure)
    | .ok (some bindings), _ => .ok (bindings, false)
    | .ok none, .create => .ok (.empty, true)
    | .ok none, .existing => .error (.noContext key)

/-- The store after an activation has looked for bindings: it was asked unless they are in
memory. -/
def looked (s : Server) (key : ContextKey) : Store :=
  match s.memory.resident.get? key with
  | some _ => s.store
  | none => (s.store.load key).2

end Server

namespace Request

theorem serve_act (action : Action) (s : Server) :
    (act action).serve s = (action.perform? s).map fun p => (.ok p.1, p.2) := by
  change (Job.act action >>= fun r => (pure (Except.ok r) : Job (Except Failure _))).run s = _
  rw [Job.run_bind, Job.run_act]
  cases action.perform? s <;> rfl

theorem serve_ofStorage (t : Job (Except StorageFailure α)) (s : Server) :
    (ofStorage t).serve s = (t.run s).map fun p => (p.1.mapError .ofStorage, p.2) := by
  change (t >>= _ : Job (Except Failure α)).run s = _
  rw [Job.run_bind]
  cases t.run s with
  | none => rfl
  | some p =>
    obtain ⟨r, u⟩ := p
    cases r <;> rfl

end Request

namespace Active

theorem serve_find (key : ContextKey) (intent : Intent) (s : Server) :
    (find key intent).serve s = some (s.found key intent, { s with store := s.looked key }) := by
  unfold find
  rw [Request.serve_bind, Request.serve_act]
  simp only [Action.perform?, Option.map_some, Server.found, Server.looked]
  cases s.memory.resident.get? key with
  | some bindings => rfl
  | none =>
    have hl : (Job.act (.load key)).run s =
        some ((s.store.load key).1, { s with store := (s.store.load key).2 }) := rfl
    simp only [Request.serve_bind, Request.serve_ofStorage, hl, Option.map_some]
    cases (s.store.load key).1 with
    | error failure => rfl
    | ok result =>
      cases result with
      | some bindings => rfl
      | none => cases intent <;> rfl

/-- The server while one request holds the lock of a key. -/
def holding (s : Server) (key : ContextKey) (access : Access) : Server :=
  { s with
    store := s.looked key
    memory.locks := .single s.memory.locks.fresh key access }

theorem serve_acquire (key : ContextKey) (operation : Operation) (intent : Intent) {s : Server}
    (hs : s.memory.locks.Idle) :
    (acquire key operation intent).serve s = match s.found key intent with
      | .error failure => some (.error failure,
          { s with
            store := s.looked key
            memory.locks := { fresh := s.memory.locks.fresh + 1 } })
      | .ok (bindings, dirty) => some
          (.ok ⟨key, operation, bindings, dirty, false, s.memory.locks.fresh,
            accessFor operation intent⟩,
          (holding s key (accessFor operation intent)).note
            (event "Activated context" key operation [("bindings", .number bindings.size)])) := by
  obtain ⟨store, ⟨retention, ⟨table, held, id⟩, resident, gate, unbound⟩, events⟩ := s
  cases hs
  have he : (Job.act (.enterLock id (accessFor operation intent))).run
      ⟨store, ⟨retention, (({ fresh := id } : LockTable).refer key).2, resident, gate, unbound⟩,
        events⟩ =
      some ((), ⟨store, ⟨retention, .single id key (accessFor operation intent), resident, gate,
        unbound⟩, events⟩) :=
    (Job.run_act _ _).trans (by
      simp only [Action.perform?, LockTable.refer_idle, LockTable.enter_single, Option.map_some])
  refine (Job.run_bind_some he).trans ?_
  refine (Job.run_bind_some (serve_find key intent _)).trans ?_
  have hsame : Server.found ⟨store, ⟨retention, .single id key (accessFor operation intent),
        resident, gate, unbound⟩, events⟩ key intent =
      Server.found ⟨store, ⟨retention, { fresh := id }, resident, gate, unbound⟩, events⟩
        key intent := rfl
  rw [hsame]
  cases Server.found _ key intent with
  | error failure =>
    change some (Except.error failure, Server.mk _ ⟨retention, LockTable.releaseIdle
      ((LockTable.single id key (accessFor operation intent)).leave id
        (accessFor operation intent)) key, resident, gate, unbound⟩ events) = _
    rw [LockTable.release_single]
    rfl
  | ok found => rfl

/-- What stays in memory of the contexts kept there when this one is released. -/
def keeps (c : Active) (retention : Retention) (resident : Resident) : Resident :=
  match retention, if c.dirty || c.removed then none else some c.bindings with
  | .cache capacity, some bindings => resident.insert capacity c.key bindings
  | _, _ => resident.remove c.key

/-- The server once an active context is released. -/
def released (c : Active) (s : Server) : Server :=
  { s with
    memory.resident := c.keeps s.memory.retention s.memory.resident
    memory.locks := (s.memory.locks.leave c.lock c.access).releaseIdle c.key
    events := event "Released context" c.key c.operation [] :: s.events }

theorem run_release (c : Active) (s : Server) : c.release.run s = some ((), c.released s) := rfl

/-- The outcome of a use, with the context as the use leaves it. -/
def play (use : Use α) (c : Active) (s : Server) : Option ((Except Failure α × Active) × Server) :=
  (use.run.run c).run s

theorem play_bind (use : Use α) (f : α → Use β) (c : Active) (s : Server) :
    play (use >>= f) c s = match play use c s with
      | none => none
      | some ((.error failure, c), s) => some ((.error failure, c), s)
      | some ((.ok a, c), s) => play (f a) c s := by
  refine (Job.run_bind (use.run.run c) (fun p => ExceptT.bindCont f p.1 p.2) s).trans ?_
  unfold play
  cases (use.run.run c).run s with
  | none => rfl
  | some p =>
    obtain ⟨⟨e, c⟩, s⟩ := p
    cases e <;> rfl

@[simp] theorem play_pure (a : α) (c : Active) (s : Server) :
    play (pure a) c s = some ((.ok a, c), s) := rfl

@[simp] theorem play_throw (failure : Failure) (c : Active) (s : Server) :
    play (throw failure : Use α) c s = some ((.error failure, c), s) := rfl

@[simp] theorem play_get (c : Active) (s : Server) : play get c s = some ((.ok c, c), s) := rfl

@[simp] theorem play_modify (change : Active → Active) (c : Active) (s : Server) :
    play (modify change) c s = some ((.ok ⟨⟩, change c), s) := rfl

theorem play_perform (action : Action) (c : Active) (s : Server) :
    play (perform action) c s = (action.perform? s).map fun p => ((.ok p.1, c), p.2) := by
  change (Job.act action >>= fun r =>
    (pure (Except.ok r, c) : Job (Except Failure action.Result × Active))).run s = _
  rw [Job.run_bind, Job.run_act]
  cases action.perform? s <;> rfl

theorem play_contains (key : ContextKey) (c : Active) (s : Server) :
    play (perform (.contains key)) c s = some ((.ok (s.store.contains key).1, c),
      { s with store := (s.store.contains key).2 }) :=
  play_perform _ c s

theorem play_ofStorage (result : Except StorageFailure α) (c : Active) (s : Server) :
    play (ofStorage result) c s = some ((result.mapError .ofStorage, c), s) := by
  cases result <;> rfl

theorem play_look (view : BindingSet → Except Failure α) (c : Active) (s : Server) :
    play (look view) c s = some ((view c.bindings, c), s) := by
  unfold look
  rw [play_bind, play_get]
  cases h : view c.bindings <;> simp only [h] <;> rfl

/-- What comes of demanding the context for itself. -/
def demanded (c : Active) (verb : String) : Except Failure Unit :=
  match c.access with
  | .exclusive => .ok ()
  | .shared => .error (.badOperation s!"{c.operation.name} cannot {verb} context {c.key.text}")

theorem demanded_exclusive {c : Active} (hc : c.access = .exclusive) (verb : String) :
    c.demanded verb = .ok () := by
  rw [demanded, hc]

theorem play_demandExclusive (verb : String) (c : Active) (s : Server) :
    play (demandExclusive verb) c s = some ((c.demanded verb, c), s) := by
  obtain ⟨_, _, _, _, _, _, access⟩ := c
  cases access <;> rfl

theorem play_edit (change : BindingSet → Except Failure (α × BindingSet)) (c : Active)
    (s : Server) : play (edit change) c s = some (match c.demanded "modify" with
      | .error failure => ((.error failure, c), s)
      | .ok () => match change c.bindings with
        | .error failure => ((.error failure, { c with dirty := true }), s)
        | .ok (a, bindings) => ((.ok a, { c with dirty := true, bindings := bindings }), s)) := by
  unfold edit
  rw [play_bind, play_demandExclusive]
  cases c.demanded "modify" with
  | error failure => rfl
  | ok _ =>
    simp only [play_bind, play_modify, play_get]
    cases change c.bindings <;> rfl

theorem play_commit (c : Active) (s : Server) :
    play commit c s = some (match c.demanded "commit" with
      | .error failure => ((.error failure, c), s)
      | .ok () => match s.store.save c.key c.bindings with
        | (.error failure, store) => ((.error (.ofStorage failure), c), { s with store := store })
        | (.ok (), store) => ((.ok (), { c with dirty := false }),
            { s with store := store }.note (Action.savedEvent c.key c.bindings))) := by
  unfold commit
  rw [play_bind, play_demandExclusive]
  cases c.demanded "commit" with
  | error failure => rfl
  | ok _ =>
    simp only [play_bind, play_get, play_perform (.save c.key c.bindings), Action.perform?]
    obtain ⟨result, store⟩ := s.store.save c.key c.bindings
    cases result <;> rfl

theorem play_remove (c : Active) (s : Server) :
    play remove c s = some (match c.demanded "remove" with
      | .error failure => ((.error failure, c), s)
      | .ok () => match s.store.remove c.key with
        | (.error failure, store) => ((.error (.ofStorage failure), c), { s with store := store })
        | (.ok _, store) => ((.ok (), { c with removed := true }), { s with store := store })) := by
  unfold remove
  rw [play_bind, play_demandExclusive]
  cases c.demanded "remove" with
  | error failure => rfl
  | ok _ =>
    simp only [play_bind, play_get, play_perform (.remove c.key), Action.perform?]
    obtain ⟨result, store⟩ := s.store.remove c.key
    cases result <;> rfl

/-- A request has the server for itself from the start to the end of an activation. -/
theorem serve_during (key : ContextKey) (operation : Operation) (intent : Intent) (use : Use α)
    {s : Server} (hs : s.memory.locks.Idle) :
    (during key operation intent use).serve s = match s.found key intent with
      | .error failure => some (.error failure,
          { s with
            store := s.looked key
            memory.locks := { fresh := s.memory.locks.fresh + 1 } })
      | .ok (bindings, dirty) =>
        (play use ⟨key, operation, bindings, dirty, false, s.memory.locks.fresh,
            accessFor operation intent⟩
          ((holding s key (accessFor operation intent)).note
            (event "Activated context" key operation
              [("bindings", .number bindings.size)]))).map
          fun p => (p.1.1, p.1.2.released p.2) := by
  refine (Job.run_bind _ _ s).trans ?_
  have ha := serve_acquire key operation intent hs
  change (acquire key operation intent).run.run s = _ at ha
  rw [ha]
  cases s.found key intent with
  | error failure => rfl
  | ok found =>
    obtain ⟨bindings, dirty⟩ := found
    refine (Job.run_bind _ _ _).trans ?_
    change (play use _ _).bind _ = (play use _ _).map _
    cases play use _ _ with
    | none => rfl
    | some p =>
      refine (Job.run_bind _ _ _).trans ?_
      rw [run_release]
      rfl

end Active

end Naming
