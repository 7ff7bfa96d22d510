import Naming.Proofs.DamagedRecords
import Naming.Proofs.Edits

namespace Naming

variable {α β ε : Type}

namespace Store

/-- What comes of something that is told to change the disk at most once, with calls of these
kinds: a refused call and a failure leave the disk as it is. -/
inductive Comes (kinds : List StoreCall) (told : Except ε (α × Disk)) (s t : Store) :
    Except ε α → Prop
  | refused {failure : ε} {kind : StoreCall} (made : kind ∈ kinds) (refusal : s.Refused t kind)
      (same : t.disk = s.disk) : Comes kinds told s t (.error failure)
  | failed {failure : ε} (failure_told : told = .error failure) (same : t.disk = s.disk) :
      Comes kinds told s t (.error failure)
  | done {a : α} (result_told : told = .ok (a, t.disk)) : Comes kinds told s t (.ok a)

variable {s t u : Store} {kinds more : List StoreCall} {told : Except ε (α × Disk)}

theorem Comes.same {failure : ε} (h : Comes kinds told s t (.error failure)) :
    t.disk = s.disk := by
  cases h with
  | refused _ _ same => exact same
  | failed _ same => exact same

theorem Comes.told_ok {a : α} (h : Comes kinds told s t (.ok a)) : told = .ok (a, t.disk) := by
  cases h with
  | done result_told => exact result_told

/-- A store that refuses nothing does as it is told. -/
theorem Comes.exact {result : Except ε α} (h : Comes kinds told s t result) (hw : s.Willing) :
    told = result.map (·, t.disk) := by
  cases h with
  | refused _ refusal _ => exact absurd refusal hw.not_refused
  | failed failure_told _ => exact failure_told
  | done result_told => exact result_told

theorem Comes.widen {result : Except ε α} (h : Comes kinds told s t result)
    (hk : kinds ⊆ more) : Comes more told s t result := by
  cases h with
  | refused made refusal same => exact .refused (hk made) refusal same
  | failed failure_told same => exact .failed failure_told same
  | done result_told => exact .done result_told

theorem Comes.mapError {ε' : Type} {result : Except ε α} (f : ε → ε')
    (h : Comes kinds told s t result) :
    Comes kinds (told.mapError f) s t (result.mapError f) := by
  cases h with
  | refused made refusal same => exact .refused made refusal same
  | failed failure_told same => exact .failed (congrArg (Except.mapError f) failure_told) same
  | done result_told => exact .done (congrArg (Except.mapError f) result_told)

theorem Comes.map {result : Except ε α} (f : α → β) (h : Comes kinds told s t result) :
    Comes kinds (told.map fun p => (f p.1, p.2)) s t (result.map f) := by
  cases h with
  | refused made refusal same => exact .refused made refusal same
  | failed failure_told same => exact .failed (congrArg (Except.map _) failure_told) same
  | done result_told => exact .done (congrArg (Except.map _) result_told)

/-- What follows after a look at the disk is told by what was seen. -/
theorem Comes.go {view : Except ε α} {a : α} {next : α → Except ε (β × Disk)}
    {result : Except ε β} (first : Comes kinds (view.map (·, s.disk)) s u (.ok a))
    (hsu : s.Onward u) (second : u.disk = s.disk → Comes kinds (next a) u t result) :
    Comes kinds (view.bind next) s t result := by
  have htold := first.told_ok
  cases view with
  | error failure => cases htold
  | ok b =>
    have hp : (b, s.disk) = (a, u.disk) := Except.ok.inj htold
    obtain ⟨rfl, hd⟩ := Prod.mk.inj hp
    have hnext : (Except.ok b).bind next = next b := rfl
    rw [hnext]
    cases second hd.symm with
    | refused made refusal same => exact .refused made (refusal.earlier hsu) (same.trans hd.symm)
    | failed failure_told same => exact .failed failure_told (same.trans hd.symm)
    | done result_told => exact .done result_told

/-- A look that comes to nothing ends it all. -/
theorem Comes.stop {view : Except ε α} {failure : ε} {next : α → Except ε (β × Disk)}
    (first : Comes kinds (view.map (·, s.disk)) s t (.error failure)) :
    Comes kinds (view.bind next) s t (.error failure) := by
  cases first with
  | refused made refusal same => exact .refused made refusal same
  | failed failure_told same =>
    cases view with
    | ok a => cases failure_told
    | error failure =>
      cases failure_told
      exact .failed rfl same

theorem call_comes (s : Store) (kind : StoreCall)
    (body : Disk → Except StorageFailure (α × Disk)) :
    Comes [kind] (body s.disk) s (s.call kind body).2 (s.call kind body).1 := by
  unfold call
  split
  · rename_i hrefused
    refine .refused (List.mem_singleton_self kind)
      ⟨s.faults.made.get kind, Nat.le_refl _, ?_, hrefused⟩ rfl
    rw [CallCount.get_tick, if_pos rfl]
    exact Nat.lt_succ_self _
  · cases hbody : body s.disk with
    | error failure => exact .failed rfl rfl
    | ok p => exact .done rfl

end Store

/-- What a request comes to that is told to change the disk at most once, on a fair server that
nobody else is using. -/
structure Request.Performs (kinds : List StoreCall) (r : Request α)
    (told : Disk → Except Failure (α × Disk)) : Prop where
  orderly : Orderly true true r
  fairly : ∀ {s t result}, s.Ready → s.Fair → r.serve s = some (result, t) →
    Store.Comes kinds (told s.store.disk) s.store t.store result

/-- A request that leaves the disk as it is. -/
abbrev Request.Views (kinds : List StoreCall) (r : Request α) (view : Disk → Except Failure α) :
    Prop :=
  r.Performs kinds fun d => (view d).map (·, d)

namespace Request

variable {kinds more : List StoreCall} {s t : Server}

theorem Performs.comes {r : Request α} {told : Disk → Except Failure (α × Disk)}
    {result : Except Failure α} (h : r.Performs kinds told) (hs : s.Ready) (hsound : s.Sound)
    (hr : r.serve s = some (result, t)) :
    Store.Comes kinds (told s.store.disk) s.store t.store result :=
  h.fairly hs hsound.fair hr

/-- What a view shows is on the disk. -/
theorem Views.seen {r : Request α} {view : Disk → Except Failure α} {a : α}
    (h : r.Views kinds view) (hs : s.Ready) (hfair : s.Fair) (hr : r.serve s = some (.ok a, t)) :
    view s.store.disk = .ok a ∧ t.store.disk = s.store.disk := by
  obtain ⟨b, hview, he⟩ := Store.map_ok (h.fairly hs hfair hr).told_ok
  obtain ⟨rfl, hd⟩ := Prod.mk.inj he
  exact ⟨hview, hd.symm⟩

theorem Performs.widen {r : Request α} {told : Disk → Except Failure (α × Disk)}
    (h : r.Performs kinds told) (hk : kinds ⊆ more) : r.Performs more told :=
  ⟨h.orderly, fun hs hfair hr => (h.fairly hs hfair hr).widen hk⟩

theorem Performs.congr {r : Request α} {told told' : Disk → Except Failure (α × Disk)}
    (h : r.Performs kinds told) (he : ∀ d, told d = told' d) : r.Performs kinds told' := by
  have hsame : told = told' := funext he
  exact hsame ▸ h

theorem Performs.map {r : Request α} {told : Disk → Except Failure (α × Disk)} (f : α → β)
    (h : r.Performs kinds told) :
    (r >>= fun a => (pure (f a) : Request β)).Performs kinds
      fun d => (told d).map fun p => (f p.1, p.2) := by
  refine ⟨.bind h.orderly fun _ => .pure _, fun hs hfair hr => ?_⟩
  obtain ⟨outcome, hfirst, rfl⟩ := serve_map_cases hr
  exact (h.fairly hs hfair hfirst).map f

theorem Views.bind {r : Request α} {view : Disk → Except Failure α} {f : α → Request β}
    {next : α → Disk → Except Failure (β × Disk)} (h : r.Views kinds view)
    (hf : ∀ a, (f a).Performs kinds (next a)) :
    (r >>= f).Performs kinds fun d => (view d).bind fun a => next a d := by
  refine ⟨.bind h.orderly fun a => (hf a).orderly, fun hs hfair hr => ?_⟩
  rcases serve_bind_cases hr with ⟨failure, hfirst, rfl⟩ | ⟨a, u, hfirst, hrest⟩
  · exact (h.fairly hs hfair hfirst).stop
  · have hu := h.orderly.ready hs hfirst
    have hufair := h.orderly.fair hs hfair hfirst
    refine (h.fairly hs hfair hfirst).go (Job.run_onward hfirst) fun hd => ?_
    rw [← hd]
    exact (hf a).fairly hu hufair hrest

theorem Views.map {r : Request α} {view : Disk → Except Failure α} (f : α → β)
    (h : r.Views kinds view) :
    (r >>= fun a => (pure (f a) : Request β)).Views kinds fun d => (view d).map f := by
  refine (Performs.map f h).congr fun d => ?_
  dsimp only
  cases view d <;> rfl

theorem Views.andThen {r : Request α} {view : Disk → Except Failure α} {f : α → Request β}
    {next : α → Disk → Except Failure β} (h : r.Views kinds view)
    (hf : ∀ a, (f a).Views kinds (next a)) :
    (r >>= f).Views kinds fun d => (view d).bind fun a => next a d := by
  refine (Views.bind h hf).congr fun d => ?_
  dsimp only
  cases view d <;> rfl

theorem Performs.gated {r : Request α} {told : Disk → Except Failure (α × Disk)}
    (h : r.Performs kinds told) : (r.gated .shared).Performs kinds told := by
  refine ⟨.gated h.orderly, fun hs hfair hr => ?_⟩
  obtain ⟨u, hu, rfl⟩ := serve_gated_cases hs.opened hr
  cases h.fairly hs.entered ⟨hfair.disk, hfair.resident⟩ hu with
  | refused made refusal same => exact .refused made refusal same
  | failed failure_told same => exact .failed failure_told same
  | done result_told => exact .done result_told

/-- What is done last to the marks alone makes no difference to the disk. -/
theorem Performs.settling {r : Request Unit} {told : Disk → Except Failure (Unit × Disk)}
    (h : r.Performs kinds told) (key : ContextKey) :
    (r >>= fun _ => act (.clearUnbound key)).Performs kinds told := by
  refine ⟨.bind h.orderly fun _ => .act (.clearUnbound key), fun hs hfair hr => ?_⟩
  rcases serve_bind_cases hr with ⟨failure, hfirst, rfl⟩ | ⟨a, u, hfirst, hrest⟩
  · exact h.fairly hs hfair hfirst
  · rw [serve_clearUnbound] at hrest
    cases hrest
    exact .done (h.fairly hs hfair hfirst).told_ok

theorem views_ofExcept (kinds : List StoreCall) (e : Except Failure α) :
    (ofExcept e).Views kinds fun _ => e := by
  refine ⟨.ofExcept e, fun _ _ hr => ?_⟩
  cases hr
  cases e with
  | error failure => exact .failed rfl rfl
  | ok a => exact .done rfl

theorem views_pure (kinds : List StoreCall) (a : α) :
    (pure a : Request α).Views kinds fun _ => .ok a :=
  views_ofExcept kinds (.ok a)

end Request

namespace Server

variable {s : Server}

theorem looked_onward (s : Server) (key : ContextKey) : s.store.Onward (s.looked key) := by
  unfold looked
  split
  · exact .refl _
  · exact s.store.call_onward _ _

/-- On a fair server an activation finds what is on the disk, unless its load is refused. -/
theorem Fair.found_comes (h : s.Fair) (key : ContextKey) (intent : Intent) :
    Store.Comes [.load] ((s.store.disk.found key intent).map (·, s.store.disk)) s.store
      (s.looked key) (s.found key intent) := by
  unfold Server.found looked Disk.found
  cases hr : s.memory.resident.get? key with
  | some bindings =>
    rw [h.resident key bindings hr]
    exact .done rfl
  | none =>
    have hload : Store.Comes [.load] ((s.store.disk.load key).map (·, s.store.disk)) s.store
        (s.store.load key).2 (s.store.load key).1 :=
      s.store.call_comes .load fun d => (d.load key).map (·, d)
    have hdisk := s.store.load_disk key
    generalize (s.store.load key).1 = result at hload
    cases hload with
    | refused made refusal same => exact .refused made refusal same
    | failed failure_told same =>
      cases hl : s.store.disk.load key with
      | error failure =>
        rw [hl] at failure_told
        cases failure_told
        exact .failed rfl same
      | ok r =>
        rw [hl] at failure_told
        cases failure_told
    | done result_told =>
      obtain ⟨r, hl, he⟩ := Store.map_ok result_told
      obtain ⟨rfl, _⟩ := Prod.mk.inj he
      rw [hl]
      dsimp only
      cases r with
      | some bindings => exact .done (by rw [hdisk]; rfl)
      | none =>
        cases intent with
        | existing => exact .failed rfl hdisk
        | create => exact .done (by rw [hdisk]; rfl)

end Server

namespace Active

variable {c : Active} {s : Server}

/-- What a use comes to that has a context for itself, told by the key and the bindings. -/
def Tells (kinds : List StoreCall) (use : Use α)
    (told : ContextKey → BindingSet → Disk → Except Failure (α × Disk)) : Prop :=
  ∀ (c : Active) (s : Server), c.access = .exclusive → ∃ result c' s',
    play use c s = some ((result, c'), s') ∧
      Store.Comes kinds (told c.key c.bindings s.store.disk) s.store s'.store result

theorem tells_commit :
    Tells [.save] commit fun key bindings d => (d.put key bindings).map ((), ·) := by
  intro c s hc
  have hcall := (s.store.call_comes .save fun d => (d.save c.key c.bindings).map ((), ·)).mapError
    Failure.ofStorage
  have htold : ((s.store.disk.save c.key c.bindings).map ((), ·)).mapError Failure.ofStorage =
      (s.store.disk.put c.key c.bindings).map ((), ·) := by
    unfold Disk.put
    cases s.store.disk.save c.key c.bindings <;> rfl
  rw [htold] at hcall
  rw [play_commit, demanded_exclusive hc]
  unfold Store.save
  dsimp only
  generalize s.store.call .save _ = answer at hcall
  obtain ⟨result, store⟩ := answer
  cases result with
  | error failure => exact ⟨_, _, _, rfl, hcall⟩
  | ok _ => exact ⟨_, _, _, rfl, hcall⟩

theorem tells_remove : Tells [.remove] remove fun key _ d => .ok ((), d.remove key) := by
  intro c s hc
  have hcall := ((s.store.call_comes .remove fun d => .ok (d.contains c.key, d.remove c.key)).map
    fun _ => ()).mapError Failure.ofStorage
  rw [play_remove, demanded_exclusive hc]
  unfold Store.remove
  dsimp only
  generalize s.store.call .remove _ = answer at hcall
  obtain ⟨result, store⟩ := answer
  cases result with
  | error failure => exact ⟨_, _, _, rfl, hcall⟩
  | ok _ => exact ⟨_, _, _, rfl, hcall⟩

variable {kinds : List StoreCall} {use : Use α}
  {told : ContextKey → BindingSet → Disk → Except Failure (α × Disk)}

/-- What is changed in memory is what is saved. -/
theorem tells_edit (change : BindingSet → Except Failure (Unit × BindingSet)) :
    Tells [.save] (edit change >>= fun _ => commit) fun key bindings d =>
      (change bindings).bind fun p => (d.put key p.2).map ((), ·) := by
  intro c s hc
  rw [play_bind, play_edit, demanded_exclusive hc]
  dsimp only
  cases change c.bindings with
  | error failure => exact ⟨_, _, _, rfl, .failed rfl rfl⟩
  | ok p => exact tells_commit { c with dirty := true, bindings := p.2 } s hc

theorem Tells.after_look (view : BindingSet → Except Failure β) (h : Tells kinds use told) :
    Tells kinds (look view >>= fun _ => use) fun key bindings d =>
      (view bindings).bind fun _ => told key bindings d := by
  intro c s hc
  rw [play_bind, play_look]
  dsimp only
  cases view c.bindings with
  | error failure => exact ⟨_, _, _, rfl, .failed rfl rfl⟩
  | ok a => exact h c s hc

theorem play_demandRecord (target : Target) (c : Active) (s : Server) : ∃ result s',
    play (Context.demandRecord target) c s = some ((result, c), s') ∧
      s.store.Onward s'.store ∧ Store.Comes [.contains]
        ((s.store.disk.accepts c.key target).map (·, s.store.disk)) s.store s'.store result := by
  cases target with
  | object reference => exact ⟨_, _, rfl, .refl _, .done rfl⟩
  | context other =>
    unfold Context.demandRecord Disk.accepts
    rw [play_bind, play_get]
    dsimp only
    split
    · exact ⟨_, _, rfl, .refl _, .done rfl⟩
    · have hcall : Store.Comes [.contains] (.ok (s.store.disk.contains other, s.store.disk)) s.store
          (s.store.contains other).2 (s.store.contains other).1 :=
        s.store.call_comes .contains fun d => .ok (d.contains other, d)
      have honward : s.store.Onward (s.store.contains other).2 := s.store.call_onward _ _
      rw [play_bind, play_contains]
      dsimp only
      rw [play_bind, play_ofStorage]
      generalize (s.store.contains other).1 = result at hcall
      cases hcall with
      | refused made refusal same => exact ⟨_, _, rfl, honward, .refused made refusal same⟩
      | failed failure_told _ => cases failure_told
      | done result_told =>
        obtain ⟨rfl, hd⟩ := Prod.mk.inj (Except.ok.inj result_told)
        cases hfound : s.store.disk.contains other with
        | true => exact ⟨_, _, rfl, honward, .done (by rw [← hd]; rfl)⟩
        | false => exact ⟨_, _, rfl, honward, .failed rfl hd.symm⟩

theorem Tells.after_demand (target : Target) (h : Tells kinds use told) :
    Tells (.contains :: kinds) (Context.demandRecord target >>= fun _ => use)
      fun key bindings d => (d.accepts key target).bind fun _ => told key bindings d := by
  intro c s hc
  obtain ⟨result, u, hp, honward, hcomes⟩ := play_demandRecord target c s
  rw [play_bind, hp]
  have hcomes := hcomes.widen (List.cons_subset_cons .contains (List.nil_subset kinds))
  cases result with
  | error failure => exact ⟨_, _, _, rfl, hcomes.stop⟩
  | ok _ =>
    obtain ⟨result, c', s', hp, hrest⟩ := h c u hc
    refine ⟨result, c', s', hp, hcomes.go honward fun hd => ?_⟩
    rw [← hd]
    exact hrest.widen (List.subset_cons_self _ _)

/-- An activation that has the context for itself does to the disk what its use does with what is
found there. -/
theorem Tells.during (h : Tells kinds use told) (hproper : Proper use) (key : ContextKey)
    {operation : Operation} {intent : Intent} (haccess : accessFor operation intent = .exclusive) :
    Request.Performs (.load :: kinds) (during key operation intent use) fun d =>
      (d.found key intent).bind fun p => told key p.1 d := by
  refine ⟨.during key operation intent hproper, fun {s t result} hs hfair hr => ?_⟩
  have hfound := (hfair.found_comes key intent).widen
    (List.cons_subset_cons .load (List.nil_subset kinds))
  rw [serve_during key operation intent use hs.idle] at hr
  generalize s.found key intent = found at hfound hr
  cases found with
  | error failure =>
    cases hr
    exact hfound.stop
  | ok p =>
    obtain ⟨q, hplayed, he⟩ := Option.map_eq_some_iff.mp hr
    obtain ⟨result, c, u, hp, hrest⟩ := h
      ⟨key, operation, p.1, p.2, false, s.memory.locks.fresh, accessFor operation intent⟩
      ((holding s key (accessFor operation intent)).note
        (event "Activated context" key operation [("bindings", .number p.1.size)])) haccess
    cases hplayed.symm.trans hp
    cases he
    refine hfound.go (s.looked_onward key) fun hd => ?_
    rw [← hd]
    exact hrest.widen (List.subset_cons_self _ _)

/-- An activation that has a context with a record for itself. -/
theorem Tells.during_existing (h : Tells kinds use told) (hproper : Proper use) (key : ContextKey)
    {operation : Operation} (hop : operation.isMutating = true) :
    Request.Performs (.load :: kinds) (Active.during key operation .existing use) fun d =>
      (d.look key .ok).bind fun bindings => told key bindings d := by
  have haccess : accessFor operation .existing = .exclusive := by
    simp [accessFor, hop]
  refine (h.during hproper key haccess).congr fun d => ?_
  unfold Disk.look
  cases d.found key .existing <;> rfl

end Active

namespace Context

variable {c : Context}

theorem views_look (key : ContextKey) (operation : Operation)
    (view : BindingSet → Except Failure α) :
    (Active.during key operation .existing (Active.look view)).Views [.load]
      fun d => d.look key view := by
  refine ⟨.look key operation .existing view, fun {s t result} hs hfair hr => ?_⟩
  have hfound := hfair.found_comes key .existing
  have htold : (s.store.disk.look key view).map (·, s.store.disk) =
      (s.store.disk.found key .existing).bind fun p => (view p.1).map (·, s.store.disk) := by
    unfold Disk.look
    cases s.store.disk.found key .existing <;> rfl
  rw [Active.serve_during key operation .existing _ hs.idle] at hr
  rw [htold]
  generalize s.found key .existing = found at hfound hr
  cases found with
  | error failure =>
    cases hr
    exact hfound.stop
  | ok p =>
    simp only [Active.play_look, Option.map_some] at hr
    cases hr
    refine hfound.go (s.looked_onward key) fun hd => ?_
    change Store.Comes [.load] _ (s.looked key) (s.looked key) (view p.1)
    cases view p.1 with
    | error failure => exact .failed rfl rfl
    | ok a => exact .done (by rw [hd]; rfl)

theorem views_child (c : Context) (name : Name) : (c.child name).Views [.load] fun d =>
    (d.look c.key (childIn name)).map fun key => { c with key := key } :=
  (views_look c.key .resolve (childIn name)).map _

/-- The context that a walk leads to is the one that the disk tells. -/
theorem views_walk (c : Context) (name : Name) : (c.walk name).Views [.load] fun d =>
    (d.walkFrom c.key name.first name.rest).map fun p => ({ c with key := p.1 }, p.2) := by
  unfold walk
  generalize name.first = first
  induction name.rest generalizing c first with
  | nil => exact Request.views_pure [.load] (c, first)
  | cons next rest ih =>
    have hwalk := (c.views_child ⟨first, next :: rest⟩).andThen fun child => ih child next
    refine Request.Performs.congr hwalk fun d => ?_
    simp only [Disk.walkFrom]
    cases d.look c.key (childIn ⟨first, next :: rest⟩) <;> rfl

theorem views_resolve (c : Context) (name : Name) :
    (c.resolve name).Views [.load] fun d => d.resolve c.key name := by
  have hresolve := (c.views_walk name).andThen fun p =>
    views_look p.1.key .resolve (targetIn p.2)
  refine Request.Performs.congr hresolve fun d => ?_
  simp only [Disk.resolve]
  cases d.walkFrom c.key name.first name.rest <;> rfl

/-- The context that a target is, if it is one. -/
def contextOf (c : Context) (name : Name) : Target → Except Failure Context
  | .context key => .ok { c with key := key }
  | .object _ => .error (.notAContext name)

theorem views_resolveContext (c : Context) (name : Name) :
    (c.resolveContext name).Views [.load] fun d =>
      (d.resolve c.key name).bind (c.contextOf name) := by
  refine (c.views_resolve name).andThen fun target => ?_
  cases target with
  | context key => exact Request.views_pure [.load] { c with key := key }
  | object reference => exact Request.views_ofExcept [.load] (.error (.notAContext name))

theorem views_demand (c : Context) (operation : Operation) :
    (c.demand operation).Views [.load] fun d => d.look c.key fun _ => .ok () :=
  views_look c.key operation _

theorem performs_bindLast (c : Context) (last : Label) (target : Target) (placement : Placement)
    {operation : Operation} (hop : operation.isMutating = true) :
    (c.bindLast last target placement operation).Performs [.load, .contains, .save] fun d =>
      (d.bindLast c.key last target placement).map ((), ·) := by
  have huse := ((Active.tells_edit (placement.change ⟨last.val, target⟩)).after_demand
    target).during_existing (.bind (proper_demandRecord target) fun _ =>
      .bind (.edit fun _ _ _ => placement.change_regular _) fun _ => .commit) c.key hop
  have hbound : Request.Performs [.load, .contains, .save]
      (Active.during c.key operation .existing do
        demandRecord target
        Active.edit (placement.change ⟨last.val, target⟩)
        Active.commit) fun d => (d.bindLast c.key last target placement).map ((), ·) := by
    refine huse.congr fun d => ?_
    simp only [Disk.bindLast]
    cases d.look c.key .ok with
    | error failure => rfl
    | ok bindings =>
      cases d.accepts c.key target with
      | error failure => rfl
      | ok _ =>
        simp only [Bind.bind, Except.bind]
        cases placement.change ⟨last.val, target⟩ bindings <;> rfl
  refine .gated ?_
  cases target with
  | context key => exact hbound.settling key
  | object reference =>
    refine (Request.Performs.map (fun _ => ()) hbound).congr fun d => ?_
    cases d.bindLast c.key last (.object reference) placement <;> rfl

theorem performs_bindTarget (c : Context) (name : Name) (target : Target) (placement : Placement)
    {operation : Operation} (hop : operation.isMutating = true) :
    (c.bindTarget name target placement operation).Performs [.load, .contains, .save] fun d =>
      (d.bind c.key name target placement).map ((), ·) := by
  have hwalk := (c.views_walk name).widen
    (List.subset_append_left [StoreCall.load] [.contains, .save])
  refine (Request.Views.bind hwalk fun p =>
    p.1.performs_bindLast p.2 target placement hop).congr fun d => ?_
  simp only [Disk.bind]
  cases d.walkFrom c.key name.first name.rest <;> rfl

theorem performs_unbind (c : Context) (name : Name) :
    (c.unbind name).Performs [.load, .save] fun d => (d.unbind c.key name).map ((), ·) := by
  have hlast : ∀ (parent : Context) (last : Label), Request.Performs [.load, .save]
      (Active.during parent.key .unbind .existing do
        Active.look fun s =>
          if (s.get? last.val).isSome then .ok () else .error (.notFound (.single last))
        Active.edit fun s => .ok ((), (s.remove last.val).2)
        Active.commit) fun d => (d.unbindLast parent.key last).map ((), ·) := by
    intro parent last
    have hmutating : Operation.unbind.isMutating = true := rfl
    have huse := ((Active.tells_edit fun s => .ok ((), (s.remove last.val).2)).after_look
      fun s => if (s.get? last.val).isSome then .ok () else .error (.notFound (.single last)))
        |>.during_existing (.bind (Active.proper_look _) fun _ =>
          .bind (.edit fun s _ t hs ht => by
            cases ht
            exact hs.remove _) fun _ => .commit) parent.key hmutating
    refine huse.congr fun d => ?_
    simp only [Disk.unbindLast]
    cases d.look parent.key .ok with
    | error failure => rfl
    | ok bindings =>
      simp only [Bind.bind, Except.bind]
      cases (bindings.get? last.val).isSome <;> rfl
  have hwalk := (c.views_walk name).widen (List.subset_append_left [StoreCall.load] [.save])
  refine (Request.Views.bind hwalk fun p => hlast p.1 p.2).congr fun d => ?_
  simp only [Disk.unbind]
  cases d.walkFrom c.key name.first name.rest <;> rfl

theorem performs_destroy (c : Context) :
    c.destroy.Performs [.load, .remove] fun d => (d.destroy c.root c.key).map ((), ·) := by
  have hmutating : Operation.destroy.isMutating = true := rfl
  have huse := (Active.tells_remove.after_look fun s =>
    if s.isEmpty then .ok () else .error (.notEmpty c.key)).during_existing
      (.bind (Active.proper_look _) fun _ => .remove) c.key hmutating
  have hdestroyed := huse.settling c.key
  unfold destroy
  by_cases hroot : c.key = c.root
  · rw [if_pos hroot]
    refine ⟨.bind (.throw _) fun _ => hdestroyed.orderly, fun _ _ hr => ?_⟩
    cases hr
    refine .failed ?_ rfl
    rw [Disk.destroy, if_pos hroot]
    rfl
  · rw [if_neg hroot]
    refine hdestroyed.congr fun d => ?_
    rw [Disk.destroy, if_neg hroot]
    simp only [Disk.look]
    cases d.found c.key .existing with
    | error failure => rfl
    | ok p =>
      simp only [Bind.bind, Except.bind]
      cases p.1.isEmpty <;> rfl

end Context

end Naming
