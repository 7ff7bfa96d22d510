import Naming.Proofs.Orderly

namespace Naming

variable {α : Type} {marks : Bool}

namespace Orderly

variable {gates : Bool}

theorem pure (a : α) : Orderly marks gates (Pure.pure a : Request α) := .steps trivial

theorem throw (failure : Failure) : Orderly marks gates (MonadExcept.throw failure : Request α) :=
  .steps trivial

theorem ofExcept (e : Except Failure α) : Orderly marks gates (Request.ofExcept e) := .steps trivial

theorem act {action : Action} (h : action.Steady marks) :
    Orderly marks gates (Request.act action) :=
  .steps ⟨h, fun _ => trivial⟩

theorem ofStorage {t : Job (Except StorageFailure α)} (h : t.All (Action.Steady marks)) :
    Orderly marks gates (Request.ofStorage t) := by
  refine .steps (h.bind fun result => ?_)
  cases result <;> trivial

theorem note (event : Log.Event) : Orderly marks gates (Request.note event) := act (.note event)

/-- An activation that only looks at the context. -/
theorem look (key : ContextKey) (operation : Operation) (intent : Intent)
    (view : BindingSet → Except Failure α) :
    Orderly marks gates (Active.during key operation intent (Active.look view)) :=
  .during key operation intent (Active.proper_look view)

end Orderly

theorem createContext_orderly : Orderly marks true createContext := by
  refine .gated (.bind (.ofStorage (.act .allocate)) fun key => ?_)
  exact .bind (.during key .newContext .create .commit) fun _ =>
    .bind (.note _) fun _ => .pure key

theorem createUnbound_orderly : Orderly true true createUnbound :=
  .gated (.bind createContext_orderly fun key => .bind (.act (.markUnbound key)) fun _ => .pure key)

namespace Context

theorem child_orderly (c : Context) (name : Name) : Orderly marks true (c.child name) :=
  .bind (.look _ _ _ _) fun _ => .pure _

theorem walkFrom_orderly (c : Context) (first : Label) (rest : List Label) :
    Orderly marks true (c.walkFrom first rest) := by
  induction rest generalizing c first with
  | nil => exact .pure _
  | cons next rest ih => exact .bind (c.child_orderly _) fun child => ih child next

theorem walk_orderly (c : Context) (name : Name) : Orderly marks true (c.walk name) :=
  c.walkFrom_orderly _ _

theorem resolve_orderly (c : Context) (name : Name) : Orderly marks true (c.resolve name) :=
  .bind (c.walk_orderly name) fun _ => .look _ _ _ _

theorem resolveContext_orderly (c : Context) (name : Name) :
    Orderly marks true (c.resolveContext name) := by
  refine .bind (c.resolve_orderly name) fun target => ?_
  cases target with
  | context key => exact .pure _
  | object reference => exact .throw _

theorem resolveText_orderly (c : Context) (text : String) :
    Orderly marks true (c.resolveText text) :=
  .bind (.ofExcept _) fun name => c.resolve_orderly name

theorem proper_demandRecord (target : Target) : Active.Proper (demandRecord target) := by
  cases target with
  | object reference => exact .pure _
  | context key =>
    refine .bind .get fun c => ?_
    split
    · exact .pure _
    · refine .bind (.contains key) fun result => .bind (.ofStorage result) fun found => ?_
      split
      · exact .pure _
      · exact .throw _

/-- A binding is put in under a free name, or anew. -/
theorem Placement.change_cases {placement : Placement} {b : Binding} {s t : BindingSet} {a : Unit}
    (h : placement.change b s = .ok (a, t)) :
    placement = .fresh ∧ s.insert b = .ok t ∨
      placement = .anew ∧ ∃ old, s.replace b = .ok (old, t) := by
  cases placement with
  | fresh =>
    cases hi : s.insert b with
    | error failure => simp [change, hi, Except.map] at h
    | ok u =>
      simp only [change, hi, Except.map, Except.ok.injEq, Prod.mk.injEq, true_and] at h
      exact .inl ⟨rfl, by rw [h]⟩
  | anew =>
    cases hr : s.replace b with
    | error failure => simp [change, hr, Except.map] at h
    | ok p =>
      simp only [change, hr, Except.map, Except.ok.injEq, Prod.mk.injEq, true_and] at h
      exact .inr ⟨rfl, p.1, by rw [← h]⟩

/-- A binding is put into a regular set in such a way that the set stays regular. -/
theorem Placement.change_regular (placement : Placement) (b : Binding) {s t : BindingSet}
    {a : Unit} (h : s.Regular) (ht : placement.change b s = .ok (a, t)) : t.Regular := by
  rcases change_cases ht with ⟨_, hinsert⟩ | ⟨_, _, hreplace⟩
  · exact h.insert hinsert
  · exact h.replace hreplace

theorem bindLast_orderly (c : Context) (last : Label) (target : Target) (placement : Placement)
    (operation : Operation) : Orderly true true (c.bindLast last target placement operation) := by
  refine .gated (.bind (.during _ _ _ (.bind (proper_demandRecord target) fun _ =>
    .bind (.edit fun _ _ _ => placement.change_regular _) fun _ => .commit)) fun _ => ?_)
  cases target with
  | context key => exact .act (.clearUnbound key)
  | object reference => exact .pure _

theorem bindTarget_orderly (c : Context) (name : Name) (target : Target) (placement : Placement)
    (operation : Operation) : Orderly true true (c.bindTarget name target placement operation) :=
  .bind (c.walk_orderly name) fun p => p.1.bindLast_orderly _ _ _ _

theorem unbind_orderly (c : Context) (name : Name) : Orderly marks true (c.unbind name) := by
  refine .bind (c.walk_orderly name) fun p => .during _ _ _ ?_
  refine .bind (Active.proper_look _) fun _ => .bind (.edit fun s _ t hs ht => ?_) fun _ => .commit
  cases ht
  exact hs.remove _

theorem list_orderly (c : Context) (max : Nat) : Orderly marks true (c.list max) := .look _ _ _ _

theorem demand_orderly (c : Context) (operation : Operation) :
    Orderly marks true (c.demand operation) :=
  .look _ _ _ _

theorem newContext_orderly (c : Context) : Orderly true true c.newContext :=
  .bind (c.demand_orderly _) fun _ => .bind createUnbound_orderly fun _ => .pure _

theorem destroy_orderly (c : Context) : Orderly true true c.destroy := by
  have hrest : Orderly true true (do
      Active.during c.key .destroy .existing do
        Active.look fun s => if s.isEmpty then .ok () else .error (.notEmpty c.key)
        Active.remove
      Request.act (.clearUnbound c.key)) :=
    .bind (.during _ _ _ (.bind (Active.proper_look _) fun _ => .remove)) fun _ =>
      .act (.clearUnbound c.key)
  unfold destroy
  split
  · exact .bind (.throw _) fun _ => hrest
  · exact hrest

theorem bindNewContext_orderly (c : Context) (name : Name) :
    Orderly true true (c.bindNewContext name) := by
  refine .bind (c.walk_orderly name) fun p => .gated (.bind createContext_orderly fun key => ?_)
  refine .bind (.attempt (p.1.bindLast_orderly _ _ _ _)) fun bound => ?_
  cases bound with
  | ok _ => exact .pure _
  | error failure =>
    refine .bind (.note _) fun _ => .bind (.attempt (destroy_orderly _)) fun destroyed => ?_
    cases destroyed with
    | ok _ => exact .throw _
    | error cleanup => exact .bind (.note _) fun _ => .throw _

end Context

namespace Service

theorem start_orderly : Orderly false true start := by
  refine .bind (.ofStorage (.act .root)) fun root => ?_
  cases root with
  | some key =>
    refine .bind (.ofStorage (.act (.contains key))) fun found => ?_
    cases found with
    | true => exact .bind (.note _) fun _ => .pure _
    | false => exact .bind (.throw _) fun _ => .bind (.note _) fun _ => .pure _
  | none =>
    refine .bind (.ofStorage (.act .allocate)) fun key => ?_
    exact .bind (.during key .newContext .create .commit) fun _ =>
      .bind (.ofStorage (.act (.setRoot key))) fun _ => .bind (.note _) fun _ => .pure _

theorem newContext_orderly (s : Service) : Orderly true true s.newContext :=
  .bind createUnbound_orderly fun _ => .pure _

theorem contextCount_orderly : Orderly marks true contextCount :=
  .bind (.ofStorage (.act .keys)) fun _ => .pure _

end Service

namespace Call

theorem run_orderly (c : Context) (call : Call) : Orderly true true (call.run c) := by
  cases call with
  | bind name reference => exact .bind (c.bindTarget_orderly _ _ _ _) fun _ => .pure _
  | bindContext name key => exact .bind (c.bindTarget_orderly _ _ _ _) fun _ => .pure _
  | rebind name reference => exact .bind (c.bindTarget_orderly _ _ _ _) fun _ => .pure _
  | rebindContext name key => exact .bind (c.bindTarget_orderly _ _ _ _) fun _ => .pure _
  | resolve name => exact .bind (c.resolve_orderly name) fun _ => .pure _
  | unbind name => exact .bind (c.unbind_orderly name) fun _ => .pure _
  | list max => exact .bind (c.list_orderly max) fun _ => .pure _
  | newContext => exact .bind c.newContext_orderly fun _ => .pure _
  | bindNewContext name => exact .bind (c.bindNewContext_orderly name) fun _ => .pure _
  | destroy => exact .bind c.destroy_orderly fun _ => .pure _
  | toText name => exact .bind (c.demand_orderly _) fun _ => .pure _
  | toName text =>
    exact .bind (c.demand_orderly _) fun _ => .bind (.ofExcept _) fun _ => .pure _
  | resolveText text => exact .bind (c.resolveText_orderly text) fun _ => .pure _

end Call

theorem Service.handle_orderly (s : Service) (key operation : String) (call : Call) :
    Orderly true true (s.handle key operation call) := by
  refine .bind (.ofExcept _) fun operation => ?_
  have hrest : Orderly true true (do
      Request.note ⟨.debug, .request, "Dispatching request",
        [("key", .text key), ("operation", .text operation.name)]⟩
      call.run (s.context ⟨key⟩)) := .bind (.note _) fun _ => call.run_orderly _
  split
  · exact .bind (.throw _) fun _ => hrest
  · exact hrest

end Naming
