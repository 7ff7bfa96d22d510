import Naming.Proofs.RequestEffects
import Naming.Proofs.Keys

namespace Naming

variable {α β : Type}

namespace Store

/-- What comes of something that is told to hand a key out and to write a record under it. When a
call is refused in between, the key is lost. -/
inductive Spends (kinds : List StoreCall) (told : Except Failure (α × Disk)) (s t : Store) :
    Except Failure α → Prop
  | comes {result : Except Failure α} (come : Comes kinds told s t result) :
      Spends kinds told s t result
  | lost {failure : Failure} {key : ContextKey} {kind : StoreCall}
      (handed : s.disk.allocate = .ok (key, t.disk)) (made : kind ∈ kinds)
      (refusal : s.Refused t kind) : Spends kinds told s t (.error failure)

variable {s t u : Store} {kinds : List StoreCall} {told : Except Failure (α × Disk)}

theorem Spends.told_ok {a : α} (h : Spends kinds told s t (.ok a)) : told = .ok (a, t.disk) := by
  cases h with
  | comes come => exact come.told_ok

/-- At most a key is spent on what fails. -/
theorem Spends.spent {failure : Failure} (h : Spends kinds told s t (.error failure)) :
    t.disk = s.disk ∨ ∃ key, s.disk.allocate = .ok (key, t.disk) := by
  cases h with
  | comes come => exact .inl come.same
  | lost handed _ _ => exact .inr ⟨_, handed⟩

theorem Spends.exact {result : Except Failure α} (h : Spends kinds told s t result)
    (hw : s.Willing) : told = result.map (·, t.disk) := by
  cases h with
  | comes come => exact come.exact hw
  | lost _ _ refusal => exact absurd refusal hw.not_refused

theorem Spends.map {result : Except Failure α} (f : α → β) (h : Spends kinds told s t result) :
    Spends kinds (told.map fun p => (f p.1, p.2)) s t (result.map f) := by
  cases h with
  | comes come => exact .comes (come.map f)
  | lost handed made refusal => exact .lost handed made refusal

/-- What is spent after a look at the disk. -/
theorem Spends.go {view : Except Failure α} {a : α} {next : α → Except Failure (β × Disk)}
    {result : Except Failure β} (first : Comes kinds (view.map (·, s.disk)) s u (.ok a))
    (hsu : s.Onward u) (second : u.disk = s.disk → Spends kinds (next a) u t result) :
    Spends kinds (view.bind next) s t result := by
  have htold := first.told_ok
  cases view with
  | error failure => cases htold
  | ok b =>
    have hp : (b, s.disk) = (a, u.disk) := Except.ok.inj htold
    have hd : s.disk = u.disk := (Prod.mk.inj hp).2
    cases second hd.symm with
    | comes come => exact .comes (first.go hsu fun _ => come)
    | lost handed made refusal => exact .lost (hd ▸ handed) made (refusal.earlier hsu)

end Store

/-- A request that is told to hand a key out and to write a record under it, on a sound server that
nobody else is using and whose keys are numbered below the counter. -/
structure Request.Spends (kinds : List StoreCall) (r : Request α)
    (told : Disk → Except Failure (α × Disk)) : Prop where
  orderly : Orderly true true r
  spends : ∀ {s t result n}, s.Ready → s.Sound → s.store.disk.Keyed n →
    r.serve s = some (result, t) → Store.Spends kinds (told s.store.disk) s.store t.store result

namespace Request

variable {kinds : List StoreCall}

theorem Spends.map {r : Request α} {told : Disk → Except Failure (α × Disk)} (f : α → β)
    (h : r.Spends kinds told) : (r >>= fun a => (pure (f a) : Request β)).Spends kinds
      fun d => (told d).map fun p => (f p.1, p.2) := by
  refine ⟨.bind h.orderly fun _ => .pure _, fun hs hsound hkeyed hr => ?_⟩
  obtain ⟨outcome, hfirst, rfl⟩ := serve_map_cases hr
  exact (h.spends hs hsound hkeyed hfirst).map f

theorem Spends.congr {r : Request α} {told told' : Disk → Except Failure (α × Disk)}
    (h : r.Spends kinds told) (he : ∀ d, told d = told' d) : r.Spends kinds told' := by
  have hsame : told = told' := funext he
  exact hsame ▸ h

theorem Spends.gated {r : Request α} {told : Disk → Except Failure (α × Disk)}
    (h : r.Spends kinds told) : (r.gated .shared).Spends kinds told := by
  refine ⟨.gated h.orderly, fun {s t result n} hs hsound hkeyed hr => ?_⟩
  obtain ⟨u, hu, rfl⟩ := serve_gated_cases hs.opened hr
  have hinside := h.spends (s := s.entered) hs.entered ⟨hsound.disk, hsound.resident⟩ hkeyed hu
  exact hinside

theorem Spends.after {r : Request α} {view : Disk → Except Failure α} {f : α → Request β}
    {next : α → Disk → Except Failure (β × Disk)} (h : r.Views kinds view)
    (hf : ∀ a, (f a).Spends kinds (next a)) :
    (r >>= f).Spends kinds fun d => (view d).bind fun a => next a d := by
  refine ⟨.bind h.orderly fun a => (hf a).orderly, fun hs hsound hkeyed hr => ?_⟩
  rcases serve_bind_cases hr with ⟨failure, hfirst, rfl⟩ | ⟨a, u, hfirst, hrest⟩
  · exact .comes (h.comes hs hsound hfirst).stop
  · have hu := h.orderly.ready hs hfirst
    have husound := h.orderly.sound hs hsound hfirst
    refine .go (h.comes hs hsound hfirst) (Job.run_onward hfirst) fun hd => ?_
    rw [← hd] at hkeyed ⊢
    exact (hf a).spends hu husound hkeyed hrest

theorem performs_allocate : (ofStorage (Job.act .allocate)).Performs [.allocate] fun d =>
    d.allocate.mapError .ofStorage := by
  refine ⟨.ofStorage (.act .allocate), fun {s t result} _ _ hr => ?_⟩
  have hcall := (s.store.call_comes .allocate Disk.allocate).mapError Failure.ofStorage
  rw [serve_ofStorage, Job.run_act] at hr
  simp only [Action.perform?, Store.allocate] at hr
  generalize s.store.call .allocate Disk.allocate = answer at hcall hr
  obtain ⟨outcome, store⟩ := answer
  cases outcome with
  | error failure =>
    cases hr
    exact hcall
  | ok key =>
    cases hr
    exact hcall

end Request

/-- Writing an empty record under a key. A record that is there already is written again. -/
def Disk.furnish (d : Disk) (key : ContextKey) : Except Failure Disk :=
  (d.found key .create).bind fun p => d.put key p.1

theorem performs_furnish (key : ContextKey) :
    (Active.during key .newContext .create Active.commit).Performs [.load, .save] fun d =>
      (d.furnish key).map ((), ·) := by
  have haccess : Active.accessFor .newContext .create = .exclusive := rfl
  refine (Active.tells_commit.during .commit key haccess).congr fun d => ?_
  unfold Disk.furnish
  cases d.found key .create <;> rfl

namespace Disk

variable {d e : Disk} {n : Nat} {key : ContextKey}

/-- Under a key that was just handed out there is no record yet. -/
theorem Keyed.furnish (h : d.Keyed n) (ha : d.allocate = .ok (key, e)) :
    ∃ f, e.furnish key = .ok f ∧ d.create = .ok (key, f) := by
  obtain ⟨hkey, hcontexts, _⟩ := h.allocated ha
  have habsent : e.contains key = false := by
    rw [contains_eq, hcontexts, ← contains_eq, hkey]
    exact h.not_contains
  have hfound : e.found key .create = .ok (.empty, true) := by
    unfold found
    rw [load_of_not_contains habsent]
  have hlimit : n < Counter.limit := by
    rw [allocate_eq h.counter] at ha
    split at ha
    · omega
    · cases ha
  obtain ⟨f, hput⟩ := e.put_ofIndex hlimit
  rw [← hkey] at hput
  refine ⟨f, ?_, ?_⟩
  · rw [Disk.furnish, hfound]
    exact hput
  · unfold create
    rw [ha]
    simp only [Except.mapError, Bind.bind, Except.bind, hput]
    rfl

end Disk

/-- What is made of a new key is lost together with it, or its record is written before anything
else is done. -/
theorem Request.serve_make_cases {f : ContextKey → Request α} {s t : Server} {n : Nat}
    {result : Except Failure α} (hs : s.Ready) (hsound : s.Sound) (hkeyed : s.store.disk.Keyed n)
    (h : (do
      let key ← Request.ofStorage (Job.act .allocate)
      Active.during key .newContext .create Active.commit
      f key).serve s = some (result, t)) :
    (∃ failure, result = .error failure ∧ Store.Spends [.allocate, .load, .save]
      s.store.disk.create s.store t.store (.error failure)) ∨
    ∃ key u, s.store.disk.create = .ok (key, u.store.disk) ∧ u.Ready ∧ u.Sound ∧
      (f key).serve u = some (result, t) := by
  rcases serve_bind_cases h with ⟨failure, hfirst, rfl⟩ | ⟨key, u, hfirst, hrest⟩
  · refine .inl ⟨failure, rfl, .comes ?_⟩
    cases performs_allocate.comes hs hsound hfirst with
    | refused made refusal same =>
      cases List.mem_singleton.mp made
      exact .refused List.mem_cons_self refusal same
    | failed failure_told same =>
      refine .failed ?_ same
      unfold Disk.create
      rw [failure_told]
      rfl
  · have hallocates := performs_allocate
    have hu := hallocates.orderly.ready hs hfirst
    have husound := hallocates.orderly.sound hs hsound hfirst
    have honward := Job.run_onward hfirst
    have hallocate : s.store.disk.allocate = .ok (key, u.store.disk) :=
      mapError_ok (hallocates.comes hs hsound hfirst).told_ok
    obtain ⟨d, hfurnish, hcreate⟩ := hkeyed.furnish hallocate
    have hfurnishes := performs_furnish key
    rcases serve_bind_cases hrest with ⟨failure, hsecond, rfl⟩ | ⟨_, v, hsecond, hlast⟩
    · have hcome := hfurnishes.comes hu husound hsecond
      rw [hfurnish] at hcome
      have hsame : t.store.disk = u.store.disk := hcome.same
      refine .inl ⟨failure, rfl, ?_⟩
      cases hcome with
      | refused made refusal _ =>
        exact .lost (hsame ▸ hallocate) (List.mem_cons_of_mem _ made) (refusal.earlier honward)
      | failed failure_told _ => cases failure_told
    · have htold := (hfurnishes.comes hu husound hsecond).told_ok
      rw [hfurnish] at htold
      cases htold
      exact .inr ⟨key, v, hcreate, hfurnishes.orderly.ready hu hsecond,
        hfurnishes.orderly.sound hu husound hsecond, hlast⟩

theorem createContext_spends :
    createContext.Spends [.allocate, .load, .save] Disk.create := by
  refine Request.Spends.gated ⟨?_, fun {s t result n} hs hsound hkeyed hr => ?_⟩
  · exact .bind (.ofStorage (.act .allocate)) fun key =>
      .bind (.during key .newContext .create .commit) fun _ =>
        .bind (.note _) fun _ => .pure key
  · rcases Request.serve_make_cases hs hsound hkeyed hr with
      ⟨failure, rfl, hspends⟩ | ⟨key, u, hcreate, _, _, hnote⟩
    · exact hspends
    · cases hnote
      exact .comes (.done hcreate)

theorem createUnbound_spends :
    createUnbound.Spends [.allocate, .load, .save] Disk.create := by
  refine Request.Spends.gated ⟨.bind createContext_orderly fun key =>
    .bind (.act (.markUnbound key)) fun _ => .pure key, fun hs hsound hkeyed hr => ?_⟩
  rcases Request.serve_bind_cases hr with ⟨failure, hfirst, rfl⟩ | ⟨key, u, hfirst, hrest⟩
  · exact createContext_spends.spends hs hsound hkeyed hfirst
  · have hspends := createContext_spends.spends hs hsound hkeyed hfirst
    rw [Request.serve_bind, serve_markUnbound] at hrest
    cases hrest
    exact .comes (.done hspends.told_ok)

namespace Disk

/-- What making a context in a service is told, which fails on a context without a record. -/
def createFrom (d : Disk) (key : ContextKey) : Except Failure (ContextKey × Disk) :=
  (d.look key fun _ => .ok ()).bind fun _ => d.create

end Disk

namespace Context

theorem newContext_spends (c : Context) : c.newContext.Spends [.allocate, .load, .save]
    fun d => (d.createFrom c.key).map fun p => ({ c with key := p.1 }, p.2) := by
  have hdemand : (c.demand .newContext).Views [.allocate, .load, .save]
      fun d => d.look c.key fun _ => .ok () :=
    (c.views_demand .newContext).widen (List.cons_subset.mpr ⟨by decide, List.nil_subset _⟩)
  have hmade := createUnbound_spends.map fun key => ({ c with key := key } : Context)
  refine (Request.Spends.after hdemand fun _ => hmade).congr fun d => ?_
  unfold Disk.createFrom
  cases d.look c.key fun _ => .ok () <;> rfl

end Context

namespace Disk

variable {d e : Disk} {n : Nat} {root key created : ContextKey}

/-- What making a context is told that is to be bound to a name. -/
def createUnder (d : Disk) (key : ContextKey) (name : Name) : Except Failure (ContextKey × Disk) :=
  (d.walkFrom key name.first name.rest).bind fun _ => d.create

theorem load_created (h : d.create = .ok (created, e)) : e.load created = .ok (some .empty) := by
  obtain ⟨f, _, hput⟩ := create_ok h
  exact load_save (put_ok hput)

/-- A context that was just made can be destroyed. -/
theorem Keyed.destroy_created (h : d.Keyed n) (hroot : root.Below n)
    (hc : d.create = .ok (created, e)) : e.destroy root created = .ok (e.remove created) := by
  have hne : created ≠ root := by
    rintro rfl
    exact ContextKey.not_below (Nat.le_refl n) ((h.created hc).1 ▸ hroot)
  unfold destroy
  rw [if_neg hne]
  simp only [look, found, load_created hc]
  rfl

end Disk

namespace Store

/-- The context that was made last could not be destroyed again, as a call to load or to remove its
record was refused. -/
def CleanupRefused (s t : Store) (key : ContextKey) : Prop :=
  ∃ (c : Context) (u v : Server) (failure : Failure), c.key = key ∧ s.Onward u.store ∧
    c.destroy.serve u = some (.error failure, v) ∧ v.store = t ∧
    (u.store.Refused t .load ∨ u.store.Refused t .remove)

theorem CleanupRefused.earlier {s t u : Store} {key : ContextKey} (h : t.CleanupRefused u key)
    (hst : s.Onward t) : s.CleanupRefused u key := by
  obtain ⟨c, v, w, failure, hkey, honward, hrest⟩ := h
  exact ⟨c, v, w, failure, hkey, hst.trans honward, hrest⟩

theorem CleanupRefused.refused {s t : Store} {key : ContextKey} (h : s.CleanupRefused t key) :
    ∃ kind, s.Refused t kind := by
  obtain ⟨_, u, _, _, _, honward, _, _, hrefused⟩ := h
  rcases hrefused with hload | hremove
  · exact ⟨.load, hload.earlier honward⟩
  · exact ⟨.remove, hremove.earlier honward⟩

/-- What comes of making a context and binding it to a name. If it cannot be bound it is destroyed
again, and if that is refused too, its record stays. -/
inductive BindsNew (c : Context) (name : Name) (s t : Store) : Except Failure ContextKey → Prop
  | unmade {failure : Failure} (spends : Spends [.allocate, .load, .save]
      (s.disk.createUnder c.key name) s t (.error failure : Except Failure ContextKey)) :
      BindsNew c name s t (.error failure)
  | bound {parent created : ContextKey} {last : Label} {d : Disk}
      (walked : s.disk.walkFrom c.key name.first name.rest = .ok (parent, last))
      (made : s.disk.create = .ok (created, d))
      (done : d.bindLast parent last (.context created) .fresh = .ok t.disk) :
      BindsNew c name s t (.ok created)
  | undone {failure : Failure} {parent created : ContextKey} {last : Label} {d : Disk}
      (walked : s.disk.walkFrom c.key name.first name.rest = .ok (parent, last))
      (made : s.disk.create = .ok (created, d))
      (reason : (∃ kind, s.Refused t kind) ∨
        d.bindLast parent last (.context created) .fresh = .error failure)
      (same : t.disk = d.remove created) : BindsNew c name s t (.error failure)
  | orphaned {failure : Failure} {created : ContextKey}
      (made : s.disk.create = .ok (created, t.disk)) (cleanup : s.CleanupRefused t created) :
      BindsNew c name s t (.error failure)

end Store

namespace Context

variable {s t : Server} {n : Nat}

theorem walk_ok {c parent : Context} {name : Name} {last : Label} (hs : s.Ready)
    (hfair : s.Fair) (h : (c.walk name).serve s = some (.ok (parent, last), t)) :
    ∃ key, parent = { c with key := key } ∧
      s.store.disk.walkFrom c.key name.first name.rest = .ok (key, last) ∧
      t.store.disk = s.store.disk := by
  obtain ⟨hview, hd⟩ := (c.views_walk name).seen hs hfair h
  obtain ⟨p, hwalked, he⟩ := Store.map_ok hview
  obtain ⟨rfl, rfl⟩ := Prod.mk.inj he
  exact ⟨p.1, rfl, hwalked, hd⟩

/-- What is done about a context that was just made and could not be bound. -/
def abandon (c : Context) (name : Name) (failure : Failure) : Request Context := do
  Request.note ⟨.warn, .context, "Bind of new context failed; destroying it",
    [("key", .text c.key.text), ("name", .text name.text), ("error", .text failure.message)]⟩
  match ← c.destroy.attempt with
  | .ok () => pure ()
  | .error cleanup =>
    Request.note ⟨.warn, .context, "Could not destroy unbound context",
      [("key", .text c.key.text), ("error", .text cleanup.message)]⟩
  throw failure

/-- The context is destroyed, whatever comes of it, and what went wrong before is passed on. -/
theorem abandon_serves {c : Context} {name : Name} {failure : Failure}
    {result : Except Failure Context} (h : (c.abandon name failure).serve s = some (result, t)) :
    result = .error failure ∧ ∃ event destroyed v,
      c.destroy.serve (s.note event) = some (destroyed, v) ∧ t.store = v.store := by
  rcases Request.serve_bind_cases h with ⟨_, hnote, _⟩ | ⟨_, u, hnote, hrest⟩
  · cases hnote
  cases hnote
  obtain ⟨destroyed, v, hdestroy, hthrow⟩ := Request.serve_attempt_cases hrest
  cases destroyed with
  | ok _ =>
    cases hthrow
    exact ⟨rfl, _, _, _, hdestroy, rfl⟩
  | error cleanup =>
    cases hthrow
    exact ⟨rfl, _, _, _, hdestroy, rfl⟩

/-- What comes of the destroying of a context that was just made. -/
theorem abandon_comes {c : Context} {failure : Failure} {name : Name} {d : Disk}
    {result : Except Failure Context} (hs : s.Ready) (hsound : s.Sound) (hkeyed : d.Keyed n)
    (hroot : c.root.Below n) (hmade : d.create = .ok (c.key, s.store.disk))
    (h : (c.abandon name failure).serve s = some (result, t)) :
    result = .error failure ∧ (t.store.disk = s.store.disk.remove c.key ∨
      t.store.disk = s.store.disk ∧ s.store.CleanupRefused t.store c.key) := by
  obtain ⟨rfl, event, destroyed, v, hdestroy, hstore⟩ := abandon_serves h
  have hcome : Store.Comes [.load, .remove] ((s.store.disk.destroy c.root c.key).map ((), ·))
      s.store v.store destroyed :=
    c.performs_destroy.comes (s := s.note _) (hs.note _) ⟨hsound.disk, hsound.resident⟩ hdestroy
  rw [hkeyed.destroy_created hroot hmade] at hcome
  refine ⟨rfl, ?_⟩
  rw [hstore]
  cases hcome with
  | refused made refusal same =>
    refine .inr ⟨same, c, s.note _, v, _, rfl, .refl _, hdestroy, rfl, ?_⟩
    rcases List.mem_cons.mp made with rfl | made
    · exact .inl refusal
    · cases List.mem_singleton.mp made
      exact .inr refusal
  | failed failure_told _ => cases failure_told
  | done result_told => exact .inl (Prod.mk.inj (Except.ok.inj result_told)).2.symm

/-- What comes of the binding of a context that was just made. -/
theorem bindCreated_comes {c parent : Context} {created : ContextKey} {last : Label} {d : Disk}
    {result : Except Failure Context} (hs : s.Ready) (hsound : s.Sound) (hkeyed : d.Keyed n)
    (hroot : c.root.Below n) (hmade : d.create = .ok (created, s.store.disk))
    (h : (do
      match ← (parent.bindLast last (.context created) .fresh .bindNewContext).attempt with
      | .ok () => return { c with key := created }
      | .error failure =>
        Request.note ⟨.warn, .context, "Bind of new context failed; destroying it",
          [("key", .text created.text), ("name", .text (Name.single last).text),
            ("error", .text failure.message)]⟩
        match ← ({ c with key := created } : Context).destroy.attempt with
        | .ok () => pure ()
        | .error cleanup =>
          Request.note ⟨.warn, .context, "Could not destroy unbound context",
            [("key", .text created.text), ("error", .text cleanup.message)]⟩
        throw failure : Request Context).serve s = some (result, t)) :
    (result = .ok { c with key := created } ∧
      s.store.disk.bindLast parent.key last (.context created) .fresh = .ok t.store.disk) ∨
    ∃ failure, result = .error failure ∧
      (((∃ kind, s.store.Refused t.store kind) ∨
          s.store.disk.bindLast parent.key last (.context created) .fresh = .error failure) ∧
        t.store.disk = s.store.disk.remove created ∨
      t.store.disk = s.store.disk ∧ s.store.CleanupRefused t.store created) := by
  obtain ⟨bound, u, hb, hafter⟩ := Request.serve_attempt_cases h
  have hbinds := performs_bindLast parent last (.context created) .fresh
    (show Operation.bindNewContext.isMutating = true from rfl)
  have hcome := hbinds.comes hs hsound hb
  cases bound with
  | ok _ =>
    cases hafter
    obtain ⟨e, hdone, he⟩ := Store.map_ok hcome.told_ok
    cases he
    exact .inl ⟨rfl, hdone⟩
  | error failure =>
    have hready := hbinds.orderly.ready hs hb
    have husound := hbinds.orderly.sound hs hsound hb
    have hsame : u.store.disk = s.store.disk := hcome.same
    rw [← hsame] at hmade
    obtain ⟨rfl, hcleaned⟩ := abandon_comes (c := { c with key := created }) hready husound hkeyed
      hroot hmade hafter
    refine .inr ⟨failure, rfl, ?_⟩
    rcases hcleaned with hremoved | ⟨hkept, hcleanup⟩
    · refine .inl ⟨?_, hsame ▸ hremoved⟩
      cases hcome with
      | refused _ refusal _ => exact .inl ⟨_, refusal.later (Job.run_onward hafter)⟩
      | failed failure_told _ => exact .inr (map_error failure_told)
    · exact .inr ⟨hkept.trans hsame, hcleanup.earlier (Job.run_onward hb)⟩

theorem bindNewContext_comes {c : Context} {name : Name} {result : Except Failure Context}
    (hs : s.Ready) (hsound : s.Sound) (hkeyed : s.store.disk.Keyed n) (hroot : c.root.Below n)
    (h : (c.bindNewContext name).serve s = some (result, t)) :
    Store.BindsNew c name s.store t.store (result.map (·.key)) := by
  have hwalk : (c.walk name).Views [.allocate, .load, .save] fun d =>
      (d.walkFrom c.key name.first name.rest).map fun p => ({ c with key := p.1 }, p.2) :=
    (c.views_walk name).widen (List.cons_subset.mpr ⟨by decide, List.nil_subset _⟩)
  have hunder : ∀ d : Disk, ((d.walkFrom c.key name.first name.rest).map fun p =>
      (({ c with key := p.1 } : Context), p.2)).bind (fun _ => d.create) =
      d.createUnder c.key name := by
    intro d
    unfold Disk.createUnder
    cases d.walkFrom c.key name.first name.rest <;> rfl
  rcases Request.serve_bind_cases h with ⟨failure, hw, rfl⟩ | ⟨⟨parent, last⟩, v, hw, hrest⟩
  · have hcome : Store.Comes _ (Except.bind _ fun _ => s.store.disk.create) s.store t.store _ :=
      (hwalk.comes hs hsound hw).stop
    rw [hunder] at hcome
    exact .unmade (.comes hcome)
  · have hv := hwalk.orderly.ready hs hw
    have hvsound := hwalk.orderly.sound hs hsound hw
    have honward := Job.run_onward hw
    obtain ⟨key, rfl, hwalked, hd⟩ := walk_ok hs hsound.fair hw
    have hvkeyed : v.store.disk.Keyed n := hd ▸ hkeyed
    obtain ⟨u, hu, rfl⟩ := Request.serve_gated_cases hv.opened hrest
    have hvs : v.entered.Sound := ⟨hvsound.disk, hvsound.resident⟩
    rcases Request.serve_bind_cases hu with ⟨failure, hc, rfl⟩ | ⟨created, w, hc, hbind⟩
    · have hspends := createContext_spends.spends hv.entered hvs hvkeyed hc
      have hfirst : Store.Comes [.allocate, .load, .save]
          ((s.store.disk.walkFrom c.key name.first name.rest).map (·, s.store.disk)) s.store
          v.store (.ok (key, last)) := by
        refine .done ?_
        rw [hwalked, hd]
        rfl
      refine .unmade (.go hfirst honward fun _ => ?_)
      rw [← hd]
      exact hspends
    · have hcreate : Orderly false true createContext := createContext_orderly
      have hmade : s.store.disk.create = .ok (created, w.store.disk) := by
        rw [← hd]
        exact (createContext_spends.spends hv.entered hvs hvkeyed hc).told_ok
      have hcreated : v.entered.store.Onward w.store := Job.run_onward hc
      have hearlier := honward.trans hcreated
      rcases bindCreated_comes (hcreate.ready hv.entered hc) (hcreate.sound hv.entered hvs hc)
          hkeyed hroot hmade hbind with
        ⟨rfl, hdone⟩ | ⟨failure, rfl, ⟨hreason, hremoved⟩ | ⟨hkept, hcleanup⟩⟩
      · exact .bound hwalked hmade hdone
      · refine .undone hwalked hmade (hreason.imp_left fun ⟨kind, refusal⟩ => ?_) hremoved
        exact ⟨kind, refusal.earlier hearlier⟩
      · exact .orphaned (hkept ▸ hmade) (hcleanup.earlier hearlier)

end Context

/-- What comes of the start of a service: it finds the root that is recorded, or makes one and
records it. When it cannot, a key may be lost, or the record of a root that is not recorded. -/
inductive Service.Starts (s t : Store) : Except Failure Service → Prop
  | found {service : Service} (recorded : s.disk.root? = .ok (some service.root))
      (same : t.disk = s.disk) : Starts s t (.ok service)
  | made {service : Service} {d : Disk} (unrecorded : s.disk.root? = .ok none)
      (made : s.disk.create = .ok (service.root, d))
      (recorded : t.disk = d.setRoot service.root) : Starts s t (.ok service)
  | failed {failure : Failure} (same : t.disk = s.disk) : Starts s t (.error failure)
  | lost {failure : Failure} {key : ContextKey} (unrecorded : s.disk.root? = .ok none)
      (handed : s.disk.allocate = .ok (key, t.disk)) : Starts s t (.error failure)
  | unfinished {failure : Failure} {key : ContextKey} (unrecorded : s.disk.root? = .ok none)
      (made : s.disk.create = .ok (key, t.disk)) : Starts s t (.error failure)

namespace Service

variable {s t : Server} {n : Nat}

theorem serve_root (s : Server) : (Request.ofStorage (Job.act .root)).serve s =
    some (s.store.disk.root?.mapError .ofStorage, s) :=
  Request.serve_ofStorage _ _

theorem views_contains (key : ContextKey) :
    (Request.ofStorage (Job.act (.contains key))).Views [.contains]
      fun d => .ok (d.contains key) := by
  refine ⟨.ofStorage (.act (.contains key)), fun {s t result} _ _ hr => ?_⟩
  have hcall := (s.store.call_comes .contains fun d => .ok (d.contains key, d)).mapError
    Failure.ofStorage
  rw [Request.serve_ofStorage, Job.run_act] at hr
  cases hr
  exact hcall

theorem performs_setRoot (key : ContextKey) :
    (Request.ofStorage (Job.act (.setRoot key))).Performs [.setRoot]
      fun d => .ok ((), d.setRoot key) := by
  refine ⟨.ofStorage (.act (.setRoot key)), fun {s t result} _ _ hr => ?_⟩
  have hcall := (s.store.call_comes .setRoot fun d => .ok ((), d.setRoot key)).mapError
    Failure.ofStorage
  rw [Request.serve_ofStorage, Job.run_act] at hr
  cases hr
  exact hcall

theorem start_comes {result : Except Failure Service} (hs : s.Ready) (hsound : s.Sound)
    (hkeyed : s.store.disk.Keyed n) (h : start.serve s = some (result, t)) :
    Starts s.store t.store result := by
  unfold start at h
  rw [Request.serve_bind, serve_root] at h
  obtain ⟨root, hroot, _⟩ := hkeyed.root
  rw [hroot] at h
  cases root with
  | some key =>
    rcases Request.serve_bind_cases h with ⟨failure, hc, rfl⟩ | ⟨found, u, hc, hrest⟩
    · exact .failed ((views_contains key).comes hs hsound hc).same
    · have hsame := ((views_contains key).seen hs hsound.fair hc).2
      cases found with
      | true =>
        cases hrest
        exact .found hroot hsame
      | false =>
        cases hrest
        exact .failed hsame
  | none =>
    rcases Request.serve_make_cases hs hsound hkeyed h with
      ⟨failure, rfl, hspends⟩ | ⟨key, u, hcreate, hu, husound, hrest⟩
    · rcases hspends.spent with hsame | ⟨key, hhanded⟩
      · exact .failed hsame
      · exact .lost hroot hhanded
    · rcases Request.serve_bind_cases hrest with ⟨failure, hset, rfl⟩ | ⟨_, v, hset, hlast⟩
      · have hsame := ((performs_setRoot key).comes hu husound hset).same
        exact .unfinished hroot (hsame ▸ hcreate)
      · have hdone := ((performs_setRoot key).comes hu husound hset).told_ok
        cases hlast
        exact .made hroot hcreate (Prod.mk.inj (Except.ok.inj hdone)).2.symm

end Service

end Naming
