import Naming.Command
import Naming.Proofs.Edits
import Naming.Proofs.Tasks
import Naming.Proofs.LockTakenOnce

namespace Naming

variable {α β : Type}

namespace Active

/-- Uses that look at a context, change its bindings to regular ones and save them. Those that may
make it lead to more contexts are told apart. -/
inductive Edits (adds : Bool) : {α : Type} → Use α → Prop
  | bind {α β : Type} {use : Use α} {f : α → Use β} (first : Edits adds use)
      (next : ∀ a, Edits adds (f a)) : Edits adds (use >>= f)
  | look {α : Type} (view : BindingSet → Except Failure α) : Edits adds (Active.look view)
  | demandRecord (target : Target) : Edits adds (Context.demandRecord target)
  | edit {α : Type} {change : BindingSet → Except Failure (α × BindingSet)}
      (regular : ∀ s a t, s.Regular → change s = .ok (a, t) → t.Regular)
      (lessens : adds = false → ∀ s a t, change s = .ok (a, t) → t.contexts ⊆ s.contexts) :
      Edits adds (Active.edit change)
  | commit : Edits adds Active.commit

theorem Edits.proper {adds : Bool} {use : Use α} (h : Edits adds use) : Proper use := by
  induction h with
  | bind first next ihFirst ihNext => exact .bind ihFirst ihNext
  | look view => exact proper_look view
  | demandRecord target => exact Context.proper_demandRecord target
  | edit regular lessens => exact .edit regular
  | commit => exact .commit

theorem Edits.blind {adds : Bool} {use : Use α} (h : Edits adds use) : Blind use := by
  induction h with
  | bind first next ihFirst ihNext => exact .bind ihFirst ihNext
  | look view => exact blind_look view
  | demandRecord target => exact blind_demandRecord target
  | edit regular lessens => exact blind_edit _
  | commit => exact blind_commit

/-- The use of a context that is to be destroyed. -/
theorem proper_removing (view : BindingSet → Except Failure α) :
    Proper (look view >>= fun _ => remove) :=
  .bind (proper_look view) fun _ => .remove

theorem blind_removing (view : BindingSet → Except Failure α) :
    Blind (look view >>= fun _ => remove) :=
  .bind (blind_look view) fun _ => blind_remove

end Active

/-- Requests that never remove the root, and that make contexts and links only inside the gate. The
first mark tells whether they are inside already, the second whether they may make a context. -/
inductive Civil (root : ContextKey) : Bool → Bool → {α : Type} → Request α → Prop
  | done {inside makes : Bool} {α : Type} (result : Except Failure α) :
      Civil root inside makes (Request.ofExcept result)
  | bind {inside made makes : Bool} {α β : Type} {r : Request α} {f : α → Request β}
      (first : Civil root inside made r) (next : ∀ a, Civil root inside makes (f a))
      (quiet : made = true → inside = true ∧ makes = true) : Civil root inside makes (r >>= f)
  | map {inside makes : Bool} {α β : Type} {r : Request α} (first : Civil root inside makes r)
      (f : α → β) : Civil root inside makes (r >>= fun a => pure (f a))
  | attempt {inside makes : Bool} {α : Type} {r : Request α} (tried : Civil root inside makes r) :
      Civil root inside makes r.attempt
  | gated {inside makes : Bool} {α : Type} {r : Request α} (within : Civil root true makes r) :
      Civil root inside makes (r.gated .shared)
  | note {inside makes : Bool} (event : Log.Event) : Civil root inside makes (Request.note event)
  | clear {inside makes : Bool} (key : ContextKey) :
      Civil root inside makes (Request.act (.clearUnbound key))
  | keys {inside makes : Bool} : Civil root inside makes (Request.ofStorage (Job.act .keys))
  | allocate : Civil root true true (Request.ofStorage (Job.act .allocate))
  | create {makes : Bool} (key : ContextKey) :
      Civil root true makes (Active.during key .newContext .create Active.commit)
  | createUnbound {inside : Bool} : Civil root inside true createUnbound
  | look {inside makes : Bool} {α : Type} (key : ContextKey) (operation : Operation)
      (view : BindingSet → Except Failure α) :
      Civil root inside makes (Active.during key operation .existing (Active.look view))
  | edit {inside makes adds : Bool} {α : Type} {use : Active.Use α} (key : ContextKey)
      (operation : Operation) (mutating : operation.isMutating = true)
      (edits : Active.Edits adds use) (permitted : adds = true → inside = true) :
      Civil root inside makes (Active.during key operation .existing use)
  | remove {inside makes : Bool} {α : Type} {key : ContextKey} (other : key ≠ root)
      (view : BindingSet → Except Failure α) :
      Civil root inside makes
        (Active.during key .destroy .existing (Active.look view >>= fun _ => Active.remove))

namespace Request

theorem bind_assoc {γ : Type} (r : Request α) (f : α → Request β) (g : β → Request γ) :
    (r >>= f) >>= g = r >>= fun a => f a >>= g := by
  refine (Job.bind_assoc r _ _).trans (congrArg (Job.bind r) (funext fun result => ?_))
  cases result <;> rfl

end Request

namespace Civil

variable {root : ContextKey} {inside makes : Bool}

theorem pure (a : α) : Civil root inside makes (Pure.pure a : Request α) := .done (.ok a)

theorem throw (failure : Failure) :
    Civil root inside makes (MonadExcept.throw failure : Request α) := .done (.error failure)

/-- A request that makes nothing, and then another. -/
theorem andThen {r : Request α} {f : α → Request β} (first : Civil root inside false r)
    (next : ∀ a, Civil root inside makes (f a)) : Civil root inside makes (r >>= f) :=
  .bind first next nofun

/-- One request after another inside the gate. -/
theorem within {r : Request α} {f : α → Request β} (first : Civil root true true r)
    (next : ∀ a, Civil root true true (f a)) : Civil root true true (r >>= f) :=
  .bind first next fun _ => ⟨rfl, rfl⟩

end Civil

/-- Requests that keep to the rules end and leave the server at rest, as orderly ones do. -/
theorem Civil.orderly {root : ContextKey} {inside makes : Bool} {r : Request α}
    (h : Civil root inside makes r) : Orderly true true r := by
  induction h with
  | done result => exact .ofExcept result
  | bind first next quiet ihFirst ihNext => exact .bind ihFirst ihNext
  | map first f ih => exact .bind ih fun _ => .pure _
  | attempt tried ih => exact .attempt ih
  | gated within ih => exact .gated ih
  | note event => exact .note event
  | clear key => exact .act (.clearUnbound key)
  | keys => exact .ofStorage (.act .keys)
  | allocate => exact .ofStorage (.act .allocate)
  | create key => exact .during key .newContext .create .commit
  | createUnbound => exact createUnbound_orderly
  | look key operation view => exact .look key operation .existing view
  | edit key operation mutating edits permitted => exact .during _ _ _ edits.proper
  | remove other view => exact .during _ _ _ (Active.proper_removing view)

section

variable {root : ContextKey} {inside makes : Bool}

theorem createContext_civil : Civil root inside true createContext := by
  refine .gated (.within .allocate fun key => ?_)
  exact .within (.create key) fun _ => .map (.note _) fun _ => key

namespace Context

theorem walkFrom_civil (c : Context) (first : Label) (rest : List Label) :
    Civil root inside makes (c.walkFrom first rest) := by
  induction rest generalizing c first makes with
  | nil => exact .pure _
  | cons next rest ih => exact .andThen (.map (.look _ _ _) _) fun child => ih child next

theorem resolve_civil (c : Context) (name : Name) : Civil root inside makes (c.resolve name) :=
  .andThen (c.walkFrom_civil _ _) fun _ => .look _ _ _

theorem resolveContext_civil (c : Context) (name : Name) :
    Civil root inside makes (c.resolveContext name) := by
  refine .andThen (c.resolve_civil name) fun target => ?_
  cases target with
  | context key => exact .pure _
  | object reference => exact .throw _

theorem resolveText_civil (c : Context) (text : String) :
    Civil root inside makes (c.resolveText text) :=
  .andThen (.done _) fun name => c.resolve_civil name

theorem bindLast_civil (c : Context) (last : Label) (target : Target) (placement : Placement)
    {operation : Operation} (hop : operation.isMutating = true) :
    Civil root inside makes (c.bindLast last target placement operation) := by
  have hedits : Active.Edits true (do
      demandRecord target
      Active.edit (placement.change ⟨last.val, target⟩)
      Active.commit) :=
    .bind (.demandRecord target) fun _ =>
      .bind (.edit (fun _ _ _ => placement.change_regular _) nofun) fun _ => .commit
  refine .gated (.andThen (.edit c.key operation hop hedits fun _ => rfl) fun _ => ?_)
  cases target with
  | context key => exact .clear key
  | object reference => exact .pure _

theorem bindTarget_civil (c : Context) (name : Name) (target : Target) (placement : Placement)
    {operation : Operation} (hop : operation.isMutating = true) :
    Civil root inside makes (c.bindTarget name target placement operation) :=
  .andThen (c.walkFrom_civil _ _) fun p => p.1.bindLast_civil _ _ _ hop

theorem unbind_civil (c : Context) (name : Name) : Civil root inside makes (c.unbind name) := by
  refine .andThen (c.walkFrom_civil _ _) fun p => ?_
  have hedits : Active.Edits false (do
      Active.look fun s =>
        if (s.get? p.2.val).isSome then .ok () else .error (.notFound (.single p.2))
      Active.edit fun s => .ok ((), (s.remove p.2.val).2)
      Active.commit) := by
    refine .bind (.look _) fun _ => .bind (.edit (fun s _ t hs ht => ?_) fun _ s _ t ht => ?_)
      fun _ => .commit
    · cases ht
      exact hs.remove _
    · cases ht
      intro key hkey
      obtain ⟨b, hb, htarget⟩ := BindingSet.mem_contexts.mp hkey
      exact BindingSet.mem_contexts.mpr ⟨b, BindingSet.mem_remove hb, htarget⟩
  exact .edit p.1.key .unbind rfl hedits nofun

theorem destroy_civil (c : Context) : Civil c.root inside makes c.destroy := by
  unfold destroy
  split
  · exact .throw _
  · rename_i hother
    exact .andThen (.remove hother _) fun _ => .clear c.key

theorem newContext_civil (c : Context) : Civil root inside true c.newContext :=
  .andThen (.look _ _ _) fun _ => .map .createUnbound _

theorem bindNewContext_civil (c : Context) (name : Name) :
    Civil c.root inside true (c.bindNewContext name) := by
  refine .andThen (c.walkFrom_civil _ _) fun p => .gated (.within createContext_civil fun key => ?_)
  refine .within (.attempt (p.1.bindLast_civil _ _ _ rfl)) fun bound => ?_
  cases bound with
  | ok _ => exact .pure _
  | error failure =>
    refine .within (.note _) fun _ => ?_
    have hdestroy : Civil c.root true true (destroy { c with key := key }) :=
      destroy_civil { c with key := key }
    refine .within (.attempt hdestroy) fun destroyed => ?_
    cases destroyed with
    | ok _ => exact .throw _
    | error cleanup => exact .within (.note _) fun _ => .throw _

end Context

namespace Call

/-- A call keeps to the rules of a service with the root of its context. -/
theorem run_civil (c : Context) (call : Call) : Civil c.root inside true (call.run c) := by
  cases call with
  | bind name reference => exact .map (c.bindTarget_civil _ _ _ rfl) _
  | bindContext name key => exact .map (c.bindTarget_civil _ _ _ rfl) _
  | rebind name reference => exact .map (c.bindTarget_civil _ _ _ rfl) _
  | rebindContext name key => exact .map (c.bindTarget_civil _ _ _ rfl) _
  | resolve name => exact .map (c.resolve_civil name) _
  | unbind name => exact .map (c.unbind_civil name) _
  | list max => exact .map (.look _ _ _) _
  | newContext => exact .map c.newContext_civil _
  | bindNewContext name => exact .map (c.bindNewContext_civil name) _
  | destroy => exact .map c.destroy_civil _
  | toText name => exact .map (.look _ _ _) _
  | toName text => exact .andThen (.look _ _ _) fun _ => .map (.done _) _
  | resolveText text => exact .map (c.resolveText_civil text) _

end Call

theorem Service.handle_civil (s : Service) (key operation : String) (call : Call) :
    Civil s.root inside true (s.handle key operation call) := by
  refine .andThen (.done _) fun operation => ?_
  split
  · exact .throw _
  · exact .andThen (.note _) fun _ => call.run_civil (s.context ⟨key⟩)

/-- Every task but a sweep keeps to the rules of the service. -/
theorem Task.request_civil (service : Service) {task : Task} (h : task ≠ .sweep) :
    Civil service.root inside true (task.request service) := by
  cases task with
  | call key c => exact .map (c.run_civil (service.context key)) _
  | resolveContext key name => exact .map ((service.context key).resolveContext_civil name) _
  | newContext => exact .map (.map .createUnbound _) _
  | contextCount => exact .map (.map .keys _) _
  | sweep => exact absurd rfl h
  | handle key operation c => exact .map (service.handle_civil key operation c) _

namespace Command

theorem page_civil [Drawing] (c : Context) (max : Nat) (format : String) :
    Civil root inside makes (page c max format) := by
  refine .andThen (.look _ _ _) fun p => ?_
  dsimp only
  split
  · exact .pure _
  · exact .pure _
  · exact .throw _

theorem destroyAt_civil (root : Context) (name : Name) :
    Civil root.root true true (destroyAt root name) := by
  unfold destroyAt Context.resolveContext
  rw [Request.bind_assoc]
  refine .within (root.resolve_civil name) fun target => ?_
  cases target with
  | object reference => exact .throw _
  | context key =>
    have hdestroy : Civil root.root true true (Context.destroy { root with key := key }) :=
      Context.destroy_civil { root with key := key }
    change Civil root.root true true (root.unbind name >>= _)
    refine .within (root.unbind_civil name) fun _ => ?_
    refine .within (.attempt hdestroy) fun destroyed => ?_
    cases destroyed with
    | ok _ => exact .pure _
    | error failure =>
      exact .within (.note _) fun _ => .within (root.bindTarget_civil _ _ _ rfl) fun _ => .throw _

/-- So does every command but the one to sweep, once it is inside the gate: it may make a context
and has more to do after that. -/
theorem run_civil [Drawing] (s : Service) {c : Command} (h : c ≠ .sweep) :
    Civil s.root true true (c.run s) := by
  cases c with
  | root => exact .pure _
  | bind name reference =>
    refine .within (.done _) fun name => ?_
    cases Target.ofText reference with
    | object reference => exact .map (s.rootContext.bindTarget_civil _ _ _ rfl) _
    | context key => exact .map (s.rootContext.bindTarget_civil _ _ _ rfl) _
  | rebind name reference =>
    refine .within (.done _) fun name => ?_
    cases Target.ofText reference with
    | object reference => exact .map (s.rootContext.bindTarget_civil _ _ _ rfl) _
    | context key => exact .map (s.rootContext.bindTarget_civil _ _ _ rfl) _
  | resolve name => exact .map (s.rootContext.resolveText_civil name) _
  | unbind name => exact .within (.done _) fun name => .map (s.rootContext.unbind_civil name) _
  | list name max format =>
    cases name with
    | none => exact page_civil _ _ _
    | some name =>
      exact .within (.done _) fun name =>
        .within (s.rootContext.resolveContext_civil name) fun c => page_civil _ _ _
  | makeContext name =>
    exact .within (.done _) fun name => .map (s.rootContext.bindNewContext_civil name) _
  | destroy name => exact .within (.done _) fun name => destroyAt_civil s.rootContext name
  | sweep => exact absurd rfl h

end Command

end

/-- A command that has the server for itself ends and keeps what a request is to keep, whatever
calls of the store fail. -/
theorem Command.run_serves [Drawing] (service : Service) (c : Command) {s : Server} (h : s.AtRest) :
    ∃ result t, (c.run service).serve s = some (result, t) ∧ s.Kept t := by
  by_cases hsweep : c = .sweep
  · subst hsweep
    obtain ⟨result, t, hserve, hk, _⟩ := service.sweep_serves h.idle h.free
    refine ⟨result.map Command.sweepReport, t, ?_, hk⟩
    simp only [Command.run, Request.serve_bind, hserve]
    cases result <;> rfl
  · obtain ⟨result, t, hserve, hk, _⟩ :=
      (Command.run_civil service hsweep).orderly.serves h.idle fun _ => h.opened
    exact ⟨result, t, hserve, hk⟩

/-- Every command that has the server for itself ends and leaves it at rest, whatever calls of the
store fail. -/
theorem Service.execute_serves [Drawing] (service : Service) (c : Command) {s : Server}
    (h : s.AtRest) :
    ∃ result t, (service.execute c).serve s = some (result, t) ∧ t.AtRest := by
  obtain ⟨result, t, hrun, hk⟩ := c.run_serves service h
  unfold Service.execute
  rw [Request.serve_bind, Request.serve_attempt, hrun]
  exact ⟨result, _, rfl, hk.locks, hk.gate.trans h.free⟩

end Naming
