import Naming.Proofs.RecordChanges

namespace Naming

variable {α β : Type}

/-- Makes a context and binds it to a free name, looked up from a context on. -/
def Disk.bindNew (d : Disk) (key : ContextKey) (name : Name) :
    Except Failure (ContextKey × Disk) := do
  let (parent, last) ← d.walkFrom key name.first name.rest
  let (created, d) ← d.create
  return (created, ← d.bindLast parent last (.context created) .fresh)

/-- What cannot be made cannot be bound. -/
theorem Disk.bindNew_unmade {d : Disk} {key : ContextKey} {name : Name} {failure : Failure}
    (h : d.createUnder key name = .error failure) : d.bindNew key name = .error failure := by
  unfold createUnder at h
  unfold bindNew
  cases hwalk : d.walkFrom key name.first name.rest with
  | error other =>
    rw [hwalk] at h
    exact h
  | ok p =>
    rw [hwalk] at h
    have hcreate : d.create = .error failure := h
    simp only [Bind.bind, Except.bind, hcreate]

/-- What is left when a context cannot be made and bound to a name although no call is refused: if
one was made, its key is spent. -/
def Disk.spoiled (d : Disk) (key : ContextKey) (name : Name) : Disk :=
  match d.createUnder key name with
  | .ok (created, e) => e.remove created
  | .error _ => d

/-- What a call answers from a page of bindings. -/
def BindingSet.listing (s : BindingSet) (max : Nat) : Reply :=
  .listing (s.page max).1 (s.page max).2

/-- What a call does to the disk and answers, when it succeeds. -/
def Call.told (c : Context) : Call → Disk → Except Failure (Reply × Disk)
  | bind name reference, d => (d.bind c.key name (.object reference) .fresh).map (.finished, ·)
  | bindContext name key, d => (d.bind c.key name (.context key) .fresh).map (.finished, ·)
  | rebind name reference, d => (d.bind c.key name (.object reference) .anew).map (.finished, ·)
  | rebindContext name key, d => (d.bind c.key name (.context key) .anew).map (.finished, ·)
  | resolve name, d => (d.resolve c.key name).map (.resolved ·, d)
  | unbind name, d => (d.unbind c.key name).map (.finished, ·)
  | list max, d => (d.look c.key fun s => .ok (s.listing max)).map (·, d)
  | newContext, d => (d.createFrom c.key).map fun p => (.context p.1, p.2)
  | bindNewContext name, d => (d.bindNew c.key name).map fun p => (.context p.1, p.2)
  | destroy, d => (d.destroy c.root c.key).map (.finished, ·)
  | toText name, d => (d.look c.key fun _ => .ok ()).map fun _ => (.text name.text, d)
  | toName text, d => (d.look c.key fun _ => .ok ()).bind fun _ =>
      ((Name.ofText text).mapError .ofFault).map (.name ·, d)
  | resolveText text, d => ((Name.ofText text).mapError .ofFault).bind fun name =>
      (d.resolve c.key name).map (.resolved ·, d)

/-- What a call leaves on the disk when it fails although no call of the store is refused. -/
def Call.spoils (c : Context) : Call → Disk → Disk
  | bindNewContext name, d => d.spoiled c.key name
  | _, d => d

namespace Store

/-- What a request leaves on the disk when it fails: what was there, or also a key that is spent,
or also the record of a context that could not be destroyed again. -/
inductive Leaves (creates bindsNew : Bool) (s t : Store) : Prop
  | same (same : t.disk = s.disk)
  | spent {key : ContextKey} (creating : creates = true)
      (handed : s.disk.allocate = .ok (key, t.disk))
  | orphaned {key : ContextKey} (binding : bindsNew = true)
      (made : s.disk.create = .ok (key, t.disk)) (cleanup : s.CleanupRefused t key)

/-- What comes of a request that is told what to do. When it fails, a call of the store was refused,
or it is told to fail and leaves the disk as it is told. -/
inductive Ends (creates bindsNew : Bool) (told : Except Failure (α × Disk)) (spoils : Disk)
    (s t : Store) : Except Failure α → Prop
  | done {a : α} (result_told : told = .ok (a, t.disk)) :
      Ends creates bindsNew told spoils s t (.ok a)
  | failed {failure : Failure}
      (reason : (∃ kind, s.Refused t kind) ∨ told = .error failure ∧ t.disk = spoils)
      (leaves : Leaves creates bindsNew s t) :
      Ends creates bindsNew told spoils s t (.error failure)

variable {s t : Store} {kinds : List StoreCall} {creates bindsNew : Bool}
  {told : Except Failure (α × Disk)} {spoils : Disk} {result : Except Failure α}

theorem Ends.told_ok {a : α} (h : Ends creates bindsNew told spoils s t (.ok a)) :
    told = .ok (a, t.disk) := by
  cases h with
  | done result_told => exact result_told

theorem Ends.leaves {failure : Failure}
    (h : Ends creates bindsNew told spoils s t (.error failure)) : Leaves creates bindsNew s t := by
  cases h with
  | failed _ leaves => exact leaves

/-- A store that refuses nothing lets nothing fail but what is told to fail. -/
theorem Ends.told_error {failure : Failure}
    (h : Ends creates bindsNew told spoils s t (.error failure)) (hw : s.Willing) :
    told = .error failure ∧ t.disk = spoils := by
  cases h with
  | failed reason _ =>
    rcases reason with ⟨kind, hrefused⟩ | htold
    · exact absurd hrefused hw.not_refused
    · exact htold

theorem Ends.map (f : α → β) (h : Ends creates bindsNew told spoils s t result) :
    Ends creates bindsNew (told.map fun p => (f p.1, p.2)) spoils s t (result.map f) := by
  cases h with
  | done result_told => exact .done (congrArg (Except.map _) result_told)
  | failed reason leaves =>
    refine .failed (reason.imp_right fun ⟨htold, hspoils⟩ => ⟨?_, hspoils⟩) leaves
    rw [htold]
    rfl

theorem Comes.ends (h : Comes kinds told s t result) :
    Ends creates bindsNew told s.disk s t result := by
  cases h with
  | refused _ refusal same => exact .failed (.inl ⟨_, refusal⟩) (.same same)
  | failed failure_told same => exact .failed (.inr ⟨failure_told, same⟩) (.same same)
  | done result_told => exact .done result_told

theorem Spends.ends (h : Spends kinds told s t result) :
    Ends true bindsNew told s.disk s t result := by
  cases h with
  | comes come => exact come.ends
  | lost handed _ refusal => exact .failed (.inl ⟨_, refusal⟩) (.spent rfl handed)

theorem BindsNew.ends {c : Context} {name : Name} {n : Nat} {result : Except Failure ContextKey}
    (h : BindsNew c name s t result) (hkeyed : s.disk.Keyed n) :
    Ends true true (s.disk.bindNew c.key name) (s.disk.spoiled c.key name) s t result := by
  cases h with
  | unmade spends =>
    refine .failed ?_ ?_
    · cases spends with
      | comes come =>
        cases come with
        | refused _ refusal _ => exact .inl ⟨_, refusal⟩
        | failed failure_told same =>
          refine .inr ⟨Disk.bindNew_unmade failure_told, ?_⟩
          unfold Disk.spoiled
          rw [failure_told, same]
      | lost _ _ refusal => exact .inl ⟨_, refusal⟩
    · rcases spends.spent with hsame | ⟨key, hhanded⟩
      · exact .same hsame
      · exact .spent rfl hhanded
  | bound walked made done =>
    refine .done ?_
    unfold Disk.bindNew
    simp only [walked, made, done, bind, Except.bind]
    rfl
  | undone walked made reason same =>
    have hhanded := hkeyed.remove_created made
    rw [← same] at hhanded
    refine .failed (reason.imp_right fun hfailed => ⟨?_, ?_⟩) (.spent rfl hhanded)
    · unfold Disk.bindNew
      simp only [walked, made, hfailed, bind, Except.bind]
    · simp only [Disk.spoiled, Disk.createUnder, walked, made, Except.bind, same]
  | orphaned made cleanup =>
    exact .failed (.inl cleanup.refused) (.orphaned rfl made cleanup)

end Store

/-- Whether a call is for making a context. -/
def Call.creates : Call → Bool
  | newContext => true
  | bindNewContext _ => true
  | _ => false

def Call.bindsNew : Call → Bool
  | bindNewContext _ => true
  | _ => false

/-- Whether a call is for removing a record. -/
def Call.removes : Call → Bool
  | destroy => true
  | _ => false

namespace Request

variable {kinds : List StoreCall} {creates bindsNew : Bool} {s t : Server}

/-- A request whose result is put in another form does as it is told, in that form. -/
theorem Performs.ends {r : Request α} {told : Disk → Except Failure (α × Disk)}
    {told' : Except Failure (β × Disk)} {f : α → β} {result : Except Failure β}
    (h : r.Performs kinds told)
    (he : (told s.store.disk).map (fun p => (f p.1, p.2)) = told') (hs : s.Ready)
    (hsound : s.Sound) (hr : (r >>= fun a => (pure (f a) : Request β)).serve s = some (result, t)) :
    Store.Ends creates bindsNew told' s.store.disk s.store t.store result := by
  obtain ⟨outcome, hserve, rfl⟩ := serve_map_cases hr
  exact he ▸ (h.comes hs hsound hserve).ends.map f

end Request

namespace Call

variable {c : Context} {s t : Server} {n : Nat} {result : Except Failure Reply}

theorem bind_performs (c : Context) (name : Name) (target : Target)
    (placement : Context.Placement) {operation : Operation} (hop : operation.isMutating = true) :
    (c.bindTarget name target placement operation >>= fun _ =>
      (pure Reply.finished : Request Reply)).Performs [.load, .contains, .save]
      fun d => (d.bind c.key name target placement).map (.finished, ·) := by
  refine ((c.performs_bindTarget name target placement hop).map fun _ => Reply.finished).congr
    fun d => ?_
  cases d.bind c.key name target placement <;> rfl

/-- A call that makes no context does as it is told, unless a call of the store is refused. -/
theorem performs (c : Context) {call : Call} (h : call.creates = false) :
    ∃ kinds, (call.run c).Performs kinds (call.told c) := by
  cases call with
  | bind name reference => exact ⟨_, bind_performs c name (.object reference) .fresh rfl⟩
  | bindContext name key => exact ⟨_, bind_performs c name (.context key) .fresh rfl⟩
  | rebind name reference => exact ⟨_, bind_performs c name (.object reference) .anew rfl⟩
  | rebindContext name key => exact ⟨_, bind_performs c name (.context key) .anew rfl⟩
  | resolve name =>
    refine ⟨_, ((c.views_resolve name).map Reply.resolved).congr fun d => ?_⟩
    simp only [told]
    cases d.resolve c.key name <;> rfl
  | unbind name =>
    refine ⟨_, ((c.performs_unbind name).map fun _ => Reply.finished).congr fun d => ?_⟩
    simp only [told]
    cases d.unbind c.key name <;> rfl
  | list max =>
    refine ⟨_, ((Context.views_look c.key .list _).map fun p : List Binding × Option Cursor =>
      Reply.listing p.1 ((p.2.map (·.remaining)).getD [])).congr fun d => ?_⟩
    simp only [told, Disk.look]
    cases d.found c.key .existing with
    | error failure => rfl
    | ok p =>
      simp only [Except.bind, Except.map, BindingSet.listing]
      cases (p.1.page max).2 <;> rfl
  | newContext | bindNewContext name => cases h
  | destroy =>
    refine ⟨_, (c.performs_destroy.map fun _ => Reply.finished).congr fun d => ?_⟩
    simp only [told]
    cases d.destroy c.root c.key <;> rfl
  | toText name =>
    refine ⟨_, ((c.views_demand .toText).map fun _ => Reply.text name.text).congr fun d => ?_⟩
    simp only [told]
    cases d.look c.key fun _ => .ok () <;> rfl
  | toName text =>
    refine ⟨_, ((c.views_demand .toName).andThen fun _ =>
      (Request.views_ofExcept [.load] ((Name.ofText text).mapError .ofFault)).map
        Reply.name).congr fun d => ?_⟩
    simp only [told]
    cases d.look c.key fun _ => .ok () with
    | error failure => rfl
    | ok _ => cases Name.ofText text <;> rfl
  | resolveText text =>
    have hview := (Request.views_ofExcept [.load] ((Name.ofText text).mapError .ofFault)).andThen
      fun name => c.views_resolve name
    refine ⟨_, (hview.map Reply.resolved).congr fun d => ?_⟩
    simp only [told]
    cases Name.ofText text with
    | error fault => rfl
    | ok name =>
      simp only [Except.mapError, Except.bind]
      cases d.resolve c.key name <;> rfl

theorem spoils_eq {call : Call} (h : call.creates = false) (d : Disk) : call.spoils c d = d := by
  cases call with
  | bindNewContext name => cases h
  | _ => rfl

/-- A call does as it is told, unless a call of the store is refused. -/
theorem run_ends {call : Call} (hs : s.Ready) (hsound : s.Sound) (hkeyed : s.store.disk.Keyed n)
    (hroot : c.root.Below n) (h : (call.run c).serve s = some (result, t)) :
    Store.Ends call.creates call.bindsNew (call.told c s.store.disk) (call.spoils c s.store.disk)
      s.store t.store result := by
  by_cases hcreates : call.creates = false
  · obtain ⟨_, hperforms⟩ := performs c hcreates
    rw [spoils_eq hcreates]
    exact (hperforms.comes hs hsound h).ends
  · cases call with
    | newContext =>
      obtain ⟨outcome, hserve, rfl⟩ := Request.serve_map_cases h
      have hmade : Store.Ends true false _ s.store.disk s.store t.store outcome :=
        (c.newContext_spends.spends hs hsound hkeyed hserve).ends
      have hends := hmade.map fun created => Reply.context created.key
      have htold : ((s.store.disk.createFrom c.key).map fun p =>
          (({ c with key := p.1 } : Context), p.2)).map (fun p => (Reply.context p.1.key, p.2)) =
          newContext.told c s.store.disk := by
        simp only [told]
        cases s.store.disk.createFrom c.key <;> rfl
      exact htold ▸ hends
    | bindNewContext name =>
      obtain ⟨outcome, hserve, rfl⟩ := Request.serve_map_cases h
      have hends := ((Context.bindNewContext_comes hs hsound hkeyed hroot hserve).ends
        hkeyed).map Reply.context
      have hresult : (outcome.map (·.key)).map Reply.context =
          outcome.map fun created => Reply.context created.key := by
        cases outcome <;> rfl
      exact hresult ▸ hends
    | _ => exact absurd rfl hcreates

/-- What a call is told to do changes the disk by steps that keep what every request keeps. -/
theorem told_changes {call : Call} {d e : Disk} {reply : Reply}
    (h : call.told c d = .ok (reply, e)) : Disk.Changes call.removes d e := by
  cases call with
  | bind name reference | bindContext name key | rebind name reference | rebindContext name key =>
    obtain ⟨_, hdone, he⟩ := Store.map_ok h
    cases he
    exact Disk.bind_changes hdone
  | unbind name =>
    obtain ⟨_, hdone, he⟩ := Store.map_ok h
    cases he
    exact Disk.unbind_changes hdone
  | resolve name | list max | toText name =>
    obtain ⟨_, _, he⟩ := Store.map_ok h
    exact .same (Prod.mk.inj he).2.symm
  | newContext =>
    obtain ⟨_, hdone, he⟩ := Store.map_ok h
    cases he
    obtain ⟨_, _, hmade⟩ := bind_ok hdone
    exact .single (.made hmade)
  | bindNewContext name =>
    obtain ⟨_, hdone, he⟩ := Store.map_ok h
    cases he
    obtain ⟨_, _, hdone⟩ := bind_ok hdone
    obtain ⟨_, hmade, hdone⟩ := bind_ok hdone
    obtain ⟨_, hbound, he⟩ := bind_ok hdone
    cases he
    exact .head (.made hmade) (Disk.bindLast_changes hbound)
  | destroy =>
    obtain ⟨_, hdone, he⟩ := Store.map_ok h
    cases he
    rw [Disk.destroy_ok hdone]
    refine .single (.pruned rfl rfl fun place => ?_)
    rw [Disk.get?_remove]
    split
    · exact .inr rfl
    · exact .inl rfl
  | toName text =>
    obtain ⟨_, _, hdone⟩ := bind_ok h
    obtain ⟨_, _, he⟩ := Store.map_ok hdone
    exact .same (Prod.mk.inj he).2.symm
  | resolveText text =>
    obtain ⟨_, _, hdone⟩ := bind_ok h
    obtain ⟨_, _, he⟩ := Store.map_ok hdone
    exact .same (Prod.mk.inj he).2.symm

end Call

theorem Store.Leaves.changes {creates bindsNew removes : Bool} {s t : Store}
    (h : Leaves creates bindsNew s t) : Disk.Changes removes s.disk t.disk := by
  cases h with
  | same same => exact .same same
  | spent _ handed => exact .single (.handed handed)
  | orphaned _ made _ => exact .single (.made made)

theorem Store.Ends.changes {creates bindsNew removes : Bool} {told : Except Failure (α × Disk)}
    {spoils : Disk} {s t : Store} {result : Except Failure α}
    (h : Ends creates bindsNew told spoils s t result)
    (htold : ∀ a e, told = .ok (a, e) → Disk.Changes removes s.disk e) :
    Disk.Changes removes s.disk t.disk := by
  cases h with
  | done result_told => exact htold _ _ result_told
  | failed _ leaves => exact leaves.changes

namespace Task

def creates : Task → Bool
  | call _ c => c.creates
  | handle _ _ c => c.creates
  | newContext => true
  | _ => false

def bindsNew : Task → Bool
  | call _ c => c.bindsNew
  | handle _ _ c => c.bindsNew
  | _ => false

def removes : Task → Bool
  | call _ c => c.removes
  | handle _ _ c => c.removes
  | sweep => true
  | _ => false

theorem creates_of_bindsNew {task : Task} (h : task.bindsNew = true) : task.creates = true := by
  have hcall : ∀ c : Call, c.bindsNew = true → c.creates = true := by
    intro c hc
    cases c with
    | bindNewContext name => rfl
    | _ => cases hc
  cases task with
  | call key c => exact hcall c h
  | handle key operation c => exact hcall c h
  | _ => cases h

variable {service : Service} {s t : Server} {n : Nat} {answer : Except Failure Answer}

theorem reply_ends {r : Request Reply} {creates bindsNew removes : Bool}
    (h : (r >>= fun reply => (pure (Answer.reply reply) : Request Answer)).serve s =
      some (answer, t))
    (hr : ∀ result, r.serve s = some (result, t) → ∃ told spoils,
      Store.Ends creates bindsNew told spoils s.store t.store result ∧
      ∀ a e, told = .ok (a, e) → Disk.Changes removes s.store.disk e) :
    ∃ told spoils, Store.Ends creates bindsNew told spoils s.store t.store answer ∧
      ∀ a e, told = .ok (a, e) → Disk.Changes removes s.store.disk e := by
  obtain ⟨outcome, hserve, rfl⟩ := Request.serve_map_cases h
  obtain ⟨told, spoils, hends, hchanges⟩ := hr outcome hserve
  refine ⟨_, _, hends.map Answer.reply, fun a e htold => ?_⟩
  obtain ⟨_, hdone, he⟩ := Store.map_ok htold
  cases he
  exact hchanges _ _ hdone

theorem call_ends {key : ContextKey} {c : Call} {result : Except Failure Reply} (hs : s.Ready)
    (hsound : s.Sound) (hkeyed : s.store.disk.Keyed n) (hroot : service.root.Below n)
    (h : (c.run (service.context key)).serve s = some (result, t)) :
    ∃ told spoils, Store.Ends c.creates c.bindsNew told spoils s.store t.store result ∧
      ∀ a e, told = .ok (a, e) → Disk.Changes c.removes s.store.disk e :=
  ⟨_, _, Call.run_ends hs hsound hkeyed hroot h, fun _ _ => Call.told_changes⟩

theorem views_keys : (Request.ofStorage (Job.act .keys)).Views [.keys]
    fun d => d.keys.mapError .ofStorage := by
  refine ⟨.ofStorage (.act .keys), fun {s t result} _ _ hr => ?_⟩
  have hcall := (s.store.call_comes .keys fun d => d.keys.map (·, d)).mapError Failure.ofStorage
  have htold : ((s.store.disk.keys.mapError Failure.ofStorage).map (·, s.store.disk)) =
      (s.store.disk.keys.map (·, s.store.disk)).mapError Failure.ofStorage := by
    cases s.store.disk.keys <;> rfl
  rw [Sweep.serve_keys] at hr
  cases hr
  exact htold ▸ hcall

theorem view_ends {β : Type} {r : Request α} {view : Disk → Except Failure α} {f : α → β}
    {kinds : List StoreCall} {creates bindsNew removes : Bool} {result : Except Failure β}
    (hv : r.Views kinds view) (hs : s.Ready) (hsound : s.Sound)
    (h : (r >>= fun a => (pure (f a) : Request β)).serve s = some (result, t)) :
    ∃ told spoils, Store.Ends creates bindsNew told spoils s.store t.store result ∧
      ∀ a e, told = .ok (a, e) → Disk.Changes removes s.store.disk e := by
  refine ⟨_, _, hv.ends rfl hs hsound h, fun a e htold => ?_⟩
  obtain ⟨_, hview, he⟩ := Store.map_ok htold
  obtain ⟨_, _, he'⟩ := Store.map_ok hview
  cases he
  cases he'
  exact .refl

/-- A task that is no sweep does as it is told, unless a call of the store is refused. -/
theorem request_ends {task : Task} (hsweep : task ≠ .sweep) (hs : s.Ready) (hsound : s.Sound)
    (hkeyed : s.store.disk.Keyed n) (hroot : service.root.Below n)
    (h : (task.request service).serve s = some (answer, t)) :
    ∃ told spoils, Store.Ends task.creates task.bindsNew told spoils s.store t.store answer ∧
      ∀ a e, told = .ok (a, e) → Disk.Changes task.removes s.store.disk e := by
  cases task with
  | call key c => exact reply_ends h fun _ hr => call_ends hs hsound hkeyed hroot hr
  | handle key operation c =>
    refine reply_ends h fun result hr => ?_
    rcases Service.handle_cases hr with ⟨failure, rfl, rfl⟩ | ⟨event, hcall⟩
    · exact ⟨.error failure, _, .failed (.inr ⟨rfl, rfl⟩) (.same rfl),
        fun _ _ htold => nomatch htold⟩
    · have hsound' : (s.note event).Sound := ⟨hsound.disk, hsound.resident⟩
      exact call_ends (s := s.note event) (hs.note event) hsound' hkeyed hroot hcall
  | resolveContext key name =>
    exact view_ends ((service.context key).views_resolveContext name) hs hsound h
  | newContext =>
    obtain ⟨outcome, hserve, rfl⟩ := Request.serve_map_cases h
    obtain ⟨made, hcreate, rfl⟩ := Request.serve_map_cases hserve
    have hends : Store.Ends true false _ s.store.disk s.store t.store made :=
      (createUnbound_spends.spends hs hsound hkeyed hcreate).ends
    have hanswer := (hends.map service.context).map fun (c : Context) => Answer.context c.key
    refine ⟨_, _, hanswer, fun a e htold => ?_⟩
    obtain ⟨_, hcontext, he⟩ := Store.map_ok htold
    obtain ⟨_, hmade, he'⟩ := Store.map_ok hcontext
    cases he
    cases he'
    exact .single (.made hmade)
  | contextCount =>
    obtain ⟨outcome, hserve, rfl⟩ := Request.serve_map_cases h
    obtain ⟨keys, hkeys, rfl⟩ := Request.serve_map_cases hserve
    obtain ⟨told, spoils, hends, hchanges⟩ :=
      view_ends (f := List.length) views_keys hs hsound hserve
    refine ⟨_, _, hends.map Answer.count, fun a e htold => ?_⟩
    obtain ⟨_, hdone, he⟩ := Store.map_ok htold
    cases he
    exact hchanges _ _ hdone
  | sweep => exact absurd rfl hsweep

/-- What a task changes on the disk, whichever calls of the store fail. -/
theorem request_changes {task : Task} (hs : s.AtRest) (hsound : s.Sound)
    (hkeyed : s.store.disk.Keyed n) (hroot : service.root.Below n)
    (h : (task.request service).serve s = some (answer, t)) :
    Disk.Changes task.removes s.store.disk t.store.disk := by
  by_cases hsweep : task = .sweep
  · subst hsweep
    obtain ⟨outcome, hserve, rfl⟩ := Request.serve_map_cases h
    obtain ⟨result, u, hwithin, hcases⟩ := Sweep.serve_within (s := s.closed) service.root hs.idle
      hsound.agrees (Sweep.linkCount_lt_census s)
    rw [Sweep.serve_sweep service hs.free, hwithin] at hserve
    cases hserve
    rcases hcases with ⟨_, _, hsame⟩ | ⟨w, _, _, hpruned⟩
    · exact .same hsame
    · refine .single (.pruned rfl hpruned.marks fun place => ?_)
      rcases hpruned.records place with hsame | ⟨hgone, _⟩
      · exact .inl hsame
      · exact .inr hgone
  · obtain ⟨told, _, hends, hchanges⟩ := request_ends hsweep hs.ready hsound hkeyed hroot h
    exact hends.changes hchanges

end Task

namespace Reached

variable {fails : StoreCall → Nat → Bool} {running : Option Service} {s t : Server}
  {history : History}

theorem start_comes {retention : Retention} {result : Except Failure Service} {n : Nat}
    (h : Reached fails running s history) (hkeyed : s.store.disk.Keyed n)
    (started : Service.start.serve (s.restart retention) = some (result, t)) :
    Service.Starts s.store t.store result := by
  have hrest : (s.restart retention).AtRest := ⟨rfl, rfl⟩
  have hsound : (s.restart retention).Sound := ⟨h.settled.sound.disk, nofun⟩
  exact Service.start_comes (s := s.restart retention) hrest.ready hsound hkeyed started

/-- All keys on the disk are numbered below the counter, and the service that runs has the root
that is recorded. -/
theorem keyed (h : Reached fails running s history) : ∃ n, s.store.disk.Keyed n ∧
    ∀ service, running = some service → s.store.disk.root? = .ok (some service.root) := by
  induction h with
  | empty retention => exact ⟨0, Disk.keyed_empty, nofun⟩
  | start before retention started ih =>
    rename_i s t history result
    obtain ⟨n, hkeyed, _⟩ := ih
    cases before.start_comes hkeyed started with
    | found recorded same =>
      refine ⟨n, ?_, fun service he => ?_⟩
      · rw [same]
        exact hkeyed
      · cases he
        rw [same]
        exact recorded
    | made _ made recorded =>
      obtain ⟨hkey, hnext⟩ := hkeyed.created made
      refine ⟨n + 1, ?_, fun service he => ?_⟩
      · rw [recorded]
        exact hnext.setRoot (hkey ▸ ContextKey.below_succ n)
      · cases he
        rw [recorded, Disk.root_setRoot]
    | failed same => exact ⟨n, same ▸ hkeyed, nofun⟩
    | lost _ handed => exact ⟨n + 1, (hkeyed.allocated handed).2.2, nofun⟩
    | unfinished _ made => exact ⟨n + 1, (hkeyed.created made).2, nofun⟩
  | task before served ih =>
    rename_i service s t history task answer
    obtain ⟨n, hkeyed, hroot⟩ := ih
    have hsettled := before.settled
    have hchanges := Task.request_changes hsettled.rest hsettled.sound hkeyed ?_ served
    · obtain ⟨m, _, hm⟩ := hchanges.keyed hkeyed
      exact ⟨m, hm, fun service he => hchanges.root.trans (hroot service he)⟩
    · obtain ⟨root, hr, hbelow⟩ := hkeyed.root
      rw [hroot service rfl] at hr
      cases hr
      exact hbelow _ rfl

theorem root_below {service : Service} {n : Nat} (h : Reached fails (some service) s history)
    (hkeyed : s.store.disk.Keyed n) : service.root.Below n := by
  obtain ⟨_, _, hrecorded⟩ := h.keyed
  obtain ⟨root, hroot, hbelow⟩ := hkeyed.root
  rw [hrecorded service rfl] at hroot
  cases hroot
  exact hbelow _ rfl

end Reached

end Naming
