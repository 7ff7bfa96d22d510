import Naming.Proofs.Rollbacks

namespace Naming

variable {α β : Type}

/-- A request that leaves the disk of a fair server as it was when it fails, whatever the reason. -/
structure Request.AllOrNothing (r : Request α) : Prop where
  orderly : Orderly true true r
  failed : ∀ {s t failure}, s.Ready → s.Fair → r.serve s = some (.error failure, t) →
    t.store.disk = s.store.disk

namespace Request

variable {kinds : List StoreCall} {s t : Server}

theorem Performs.allOrNothing {r : Request α} {told : Disk → Except Failure (α × Disk)}
    (h : r.Performs kinds told) : r.AllOrNothing :=
  ⟨h.orderly, fun hs hfair hr => (h.fairly hs hfair hr).same⟩

theorem AllOrNothing.map {r : Request α} (h : r.AllOrNothing) (f : α → β) :
    (r >>= fun a => (pure (f a) : Request β)).AllOrNothing := by
  refine ⟨.bind h.orderly fun _ => .pure _, fun hs hfair hr => ?_⟩
  rcases serve_bind_cases hr with ⟨failure, hfirst, he⟩ | ⟨a, u, hfirst, hlast⟩
  · exact h.failed hs hfair hfirst
  · cases hlast

/-- Looking at the disk first makes no difference. -/
theorem Views.before {r : Request α} {view : Disk → Except Failure α} {f : α → Request β}
    (h : r.Views kinds view) (hf : ∀ a, (f a).AllOrNothing) : (r >>= f).AllOrNothing := by
  refine ⟨.bind h.orderly fun a => (hf a).orderly, fun hs hfair hr => ?_⟩
  rcases serve_bind_cases hr with ⟨failure, hfirst, _⟩ | ⟨a, u, hfirst, hrest⟩
  · exact (h.fairly hs hfair hfirst).same
  · have hd := (h.seen hs hfair hfirst).2
    have hu := h.orderly.ready hs hfirst
    exact ((hf a).failed hu (h.orderly.fair hs hfair hfirst) hrest).trans hd

end Request

namespace Command

theorem views_readName (kinds : List StoreCall) (text : String) :
    (readName text).Views kinds fun _ => (Name.ofText text).mapError .ofFault :=
  Request.views_ofExcept kinds _

theorem readName_cases {text : String} {f : Name → Request α} {s t : Server}
    {result : Except Failure α} (h : (readName text >>= f).serve s = some (result, t)) :
    t = s ∨ ∃ name, Name.ofText text = .ok name ∧ (f name).serve s = some (result, t) := by
  unfold readName at h
  cases hname : Name.ofText text with
  | error fault =>
    rw [hname] at h
    cases h
    exact .inl rfl
  | ok name =>
    rw [hname] at h
    exact .inr ⟨name, rfl, h⟩

theorem page_allOrNothing [Drawing] (c : Context) (max : Nat) (format : String) :
    (page c max format).AllOrNothing := by
  refine Request.Views.before (Context.views_look _ _ _) fun p => ?_
  dsimp only
  split
  · exact (Request.views_pure [] _).allOrNothing
  · exact (Request.views_pure [] _).allOrNothing
  · exact (Request.views_ofExcept [] (.error _)).allOrNothing

/-- Whether a command saves at most one record and removes none. -/
def simple : Command → Bool
  | sweep | makeContext _ | destroy _ => false
  | _ => true

/-- Every command that saves at most one record leaves all as it was when it fails. -/
theorem run_allOrNothing [Drawing] (service : Service) {c : Command} (h : c.simple = true) :
    (c.run service).AllOrNothing := by
  cases c with
  | root => exact (Request.views_pure [] _).allOrNothing
  | bind text reference =>
    refine (views_readName [] text).before fun name => ?_
    cases Target.ofText reference with
    | object reference =>
      exact (service.rootContext.performs_bindTarget _ _ _ rfl).allOrNothing.map _
    | context key =>
      exact (service.rootContext.performs_bindTarget _ _ _ rfl).allOrNothing.map _
  | rebind text reference =>
    refine (views_readName [] text).before fun name => ?_
    cases Target.ofText reference with
    | object reference =>
      exact (service.rootContext.performs_bindTarget _ _ _ rfl).allOrNothing.map _
    | context key =>
      exact (service.rootContext.performs_bindTarget _ _ _ rfl).allOrNothing.map _
  | resolve text =>
    have hresolve : (service.rootContext.resolveText text).AllOrNothing :=
      (views_readName [] text).before fun name =>
        (service.rootContext.views_resolve name).allOrNothing
    exact hresolve.map _
  | unbind text =>
    exact (views_readName [] text).before fun name =>
      (service.rootContext.performs_unbind name).allOrNothing.map _
  | list text max format =>
    cases text with
    | none => exact page_allOrNothing _ _ _
    | some text =>
      exact (views_readName [] text).before fun name =>
        (service.rootContext.views_resolveContext name).before fun c => page_allOrNothing _ _ _
  | makeContext text | destroy text | sweep => cases h

end Command

namespace Disk

variable {d e : Disk} {key : ContextKey}

/-- There is no record of the context, or one without bindings. -/
def Vacant (d : Disk) (key : ContextKey) : Prop :=
  d.load key = .ok none ∨ d.load key = .ok (some .empty)

/-- What is written under a key for a new context is the record that is there already, or an empty
one. -/
theorem furnish_ok (hd : d.Regular) (h : d.furnish key = .ok e) :
    (∀ place, place ≠ Disk.place key → e.contexts.get? place = d.contexts.get? place) ∧
      ∃ bindings, e.load key = .ok (some bindings) ∧ bindings.Regular ∧
        (d.load key = .ok (some bindings) ∨ d.load key = .ok none ∧ bindings = .empty) := by
  obtain ⟨⟨bindings, dirty⟩, hfound, hput⟩ := bind_ok h
  have hothers : ∀ place, place ≠ Disk.place key →
      e.contexts.get? place = d.contexts.get? place :=
    fun place hne => (get?_save (put_ok hput) place).trans (if_neg hne)
  refine ⟨hothers, ?_⟩
  unfold found at hfound
  cases hload : d.load key with
  | error failure =>
    rw [hload] at hfound
    cases hfound
  | ok record =>
    rw [hload] at hfound
    cases record with
    | none =>
      cases hfound
      exact ⟨.empty, load_put hput BindingSet.regular_empty, BindingSet.regular_empty,
        .inr ⟨rfl, rfl⟩⟩
    | some stored =>
      cases hfound
      have hregular := hd.regular hload
      exact ⟨bindings, load_put hput hregular, hregular, .inl rfl⟩

end Disk

/-- What is left under a key that was handed out for a context that was not bound after all. All
other records are as they were. That under the key is, too, or it is still vacant; an empty record
was added only if a call was refused or the key is that of the root. -/
structure Store.Leftover (s t : Store) (root key : ContextKey) : Prop where
  handed : ∃ e, s.disk.allocate = .ok (key, e)
  others : ∀ place, place ≠ Disk.place key →
    t.disk.contexts.get? place = s.disk.contexts.get? place
  record : t.disk.load key = s.disk.load key ∨ s.disk.Vacant key ∧ t.disk.Vacant key
  added : s.disk.load key = .ok none → t.disk.load key ≠ .ok none → ¬ s.Willing ∨ key = root

namespace Store.Leftover

variable {s t : Store} {root key : ContextKey} {d e : Disk}

/-- The record that was written is still there. -/
theorem written (hs : s.disk.Regular) (handed : s.disk.allocate = .ok (key, d))
    (hfurnish : d.furnish key = .ok t.disk)
    (hkept : ¬ s.Willing ∨ ∃ failure, t.disk.destroy root key = .error failure) :
    s.Leftover t root key := by
  obtain ⟨_, _, _, _, hcontexts⟩ := Disk.allocate_ok handed
  obtain ⟨hothers, bindings, hload, _, hbefore⟩ := Disk.furnish_ok (hs.congr hcontexts) hfurnish
  have hsame : d.load key = s.disk.load key := Disk.load_congr (by rw [hcontexts])
  rw [hsame] at hbefore
  refine ⟨⟨d, handed⟩, fun place hne => by rw [hothers place hne, hcontexts], ?_, ?_⟩
  · rcases hbefore with hold | ⟨hnone, rfl⟩
    · exact .inl (hload.trans hold.symm)
    · exact .inr ⟨.inl hnone, .inr hload⟩
  · intro hnone _
    refine hkept.imp_right fun ⟨failure, hdestroy⟩ => ?_
    by_contra hroot
    rcases hbefore with hold | ⟨_, rfl⟩
    · cases hnone.symm.trans hold
    · rw [Disk.destroy, if_neg hroot, Disk.look_stored hload] at hdestroy
      cases hdestroy

/-- The record that was written was removed again. -/
theorem removed (hs : s.disk.Regular) (handed : s.disk.allocate = .ok (key, d))
    (hfurnish : d.furnish key = .ok e) (hdestroy : e.destroy root key = .ok t.disk) :
    s.Leftover t root key := by
  obtain ⟨_, _, _, _, hcontexts⟩ := Disk.allocate_ok handed
  obtain ⟨hothers, bindings, hload, hregular, hbefore⟩ :=
    Disk.furnish_ok (hs.congr hcontexts) hfurnish
  have hsame : d.load key = s.disk.load key := Disk.load_congr (by rw [hcontexts])
  obtain ⟨destroyed, hstored, hempty, hgone⟩ := Disk.load_destroy hdestroy
  cases hload.symm.trans hstored
  have hblank : bindings = .empty := by
    rw [← hregular.eq_ofList, List.isEmpty_iff.mp hempty]
    rfl
  rw [hsame, hblank] at hbefore
  refine ⟨⟨d, handed⟩, fun place hne => ?_, .inr ⟨?_, .inl hgone⟩, fun _ hkept => ?_⟩
  · rw [Disk.destroy_ok hdestroy, Disk.get?_remove, if_neg hne, hothers place hne, hcontexts]
  · exact hbefore.symm.imp_left fun hnone => hnone.1
  · exact absurd hgone hkept

end Store.Leftover

namespace Context

variable {s t : Server} {c : Context}

theorem createContext_furnishes {result : Except Failure ContextKey} (hs : s.Ready)
    (hfair : s.Fair) (h : createContext.serve s = some (result, t)) :
    (result.isOk = false → t.store.disk.contexts = s.store.disk.contexts) ∧
      ∀ key, result = .ok key → ∃ d, s.store.disk.allocate = .ok (key, d) ∧
        d.furnish key = .ok t.store.disk := by
  obtain ⟨u, hu, rfl⟩ := Request.serve_gated_cases hs.opened h
  have hentered : s.entered.Fair := ⟨hfair.disk, hfair.resident⟩
  have hallocates := Request.performs_allocate
  rcases Request.serve_bind_cases hu with ⟨failure, hfirst, rfl⟩ | ⟨key, v, hfirst, hrest⟩
  · have hsame : u.store.disk = s.store.disk := (hallocates.fairly hs.entered hentered hfirst).same
    exact ⟨fun _ => congrArg Disk.contexts hsame, nofun⟩
  have hhanded : s.store.disk.allocate = .ok (key, v.store.disk) :=
    mapError_ok (hallocates.fairly hs.entered hentered hfirst).told_ok
  obtain ⟨_, _, _, _, hcontexts⟩ := Disk.allocate_ok hhanded
  have hv := hallocates.orderly.ready hs.entered hfirst
  have hvfair := hallocates.orderly.fair hs.entered hentered hfirst
  rcases Request.serve_bind_cases hrest with ⟨failure, hsecond, rfl⟩ | ⟨_, w, hsecond, hlast⟩
  · have hsame : u.store.disk = v.store.disk :=
      ((performs_furnish key).fairly hv hvfair hsecond).same
    exact ⟨fun _ => (congrArg Disk.contexts hsame).trans hcontexts, nofun⟩
  · obtain ⟨_, hfurnish, he⟩ :=
      Store.map_ok ((performs_furnish key).fairly hv hvfair hsecond).told_ok
    cases he
    cases hlast
    refine ⟨nofun, fun other he => ?_⟩
    cases he
    exact ⟨v.store.disk, hhanded, hfurnish⟩

/-- The record of a context that could not be bound is removed, or it is kept for a reason. -/
theorem abandon_removes {failure : Failure} {name : Name} {result : Except Failure Context}
    (hs : s.Ready) (hfair : s.Fair)
    (h : (c.abandon name failure).serve s = some (result, t)) :
    s.store.disk.destroy c.root c.key = .ok t.store.disk ∨ t.store.disk = s.store.disk ∧
      (¬ s.store.Willing ∨ ∃ other, s.store.disk.destroy c.root c.key = .error other) := by
  obtain ⟨_, event, destroyed, v, hdestroy, hstore⟩ := abandon_serves h
  have hcome : Store.Comes [.load, .remove] ((s.store.disk.destroy c.root c.key).map ((), ·))
      s.store v.store destroyed :=
    c.performs_destroy.fairly (s := s.note _) (hs.note _) ⟨hfair.disk, hfair.resident⟩ hdestroy
  rw [hstore]
  cases hcome with
  | refused made refusal same =>
    exact .inr ⟨same, .inl fun hwilling => hwilling.not_refused refusal⟩
  | failed failure_told same => exact .inr ⟨same, .inr ⟨_, map_error failure_told⟩⟩
  | done result_told =>
    obtain ⟨e, hdone, he⟩ := Store.map_ok result_told
    cases he
    exact .inl hdone

/-- What is left when a context could not be made or not be bound to a name. -/
theorem bindNewContext_leaves {name : Name} {failure : Failure} (hs : s.Ready) (hfair : s.Fair)
    (h : (c.bindNewContext name).serve s = some (.error failure, t)) :
    t.store.disk.contexts = s.store.disk.contexts ∨
      ∃ key, s.store.Leftover t.store c.root key := by
  have hwalk := c.views_walk name
  rcases Request.serve_bind_cases h with ⟨_, hw, _⟩ | ⟨⟨parent, last⟩, v, hw, hrest⟩
  · exact .inl (congrArg Disk.contexts (hwalk.fairly hs hfair hw).same)
  have hd := (hwalk.seen hs hfair hw).2
  have hv := hwalk.orderly.ready hs hw
  have hvfair := hwalk.orderly.fair hs hfair hw
  obtain ⟨u, hu, rfl⟩ := Request.serve_gated_cases hv.opened hrest
  have hentered : v.entered.Fair := ⟨hvfair.disk, hvfair.resident⟩
  rcases Request.serve_bind_cases hu with ⟨_, hc, _⟩ | ⟨key, w, hc, hbind⟩
  · have hsame := (createContext_furnishes hv.entered hentered hc).1 rfl
    exact .inl (hsame.trans (congrArg Disk.contexts hd))
  obtain ⟨d, hhanded, hfurnish⟩ := (createContext_furnishes hv.entered hentered hc).2 key rfl
  -- from here on the record is written, and stays unless it is removed again
  have hcreate : Orderly false true createContext := createContext_orderly
  have hready := hcreate.ready hv.entered hc
  have hwfair := hcreate.fair hv.entered hentered hc
  obtain ⟨bound, x, hb, hafter⟩ := Request.serve_attempt_cases hbind
  have hbinds := performs_bindLast parent last (.context key) .fresh
    (show Operation.bindNewContext.isMutating = true from rfl)
  cases bound with
  | ok _ => cases hafter
  | error other =>
    have hsame : x.store.disk = w.store.disk := (hbinds.fairly hready hwfair hb).same
    have honward : s.store.Onward x.store :=
      (Job.run_onward hw).trans ((Job.run_onward hc).trans (Job.run_onward hb))
    have hcleaned := abandon_removes (c := { c with key := key })
      (hbinds.orderly.ready hready hb) (hbinds.orderly.fair hready hwfair hb) hafter
    have hhanded : s.store.disk.allocate = .ok (key, d) := hd ▸ hhanded
    rw [hsame] at hcleaned
    refine .inr ⟨key, ?_⟩
    rcases hcleaned with hdestroy | ⟨hkept, hreason⟩
    · exact .removed hfair.disk hhanded hfurnish hdestroy
    · refine .written hfair.disk hhanded (hfurnish.trans (congrArg Except.ok hkept.symm)) ?_
      rw [← hkept] at hreason
      exact hreason.imp_left fun hrefused hwilling => hrefused (honward.fails.trans hwilling)

end Context

/-- Whatever calls fail, a sweep removes only what could not be reached and did not wait to be
bound, and changes nothing else. -/
theorem Service.sweep_prunes (service : Service) {s : Server} (hs : s.AtRest) (hfair : s.Fair) :
    ∃ result t, service.sweep.serve s = some (result, t) ∧ ∀ place,
      t.store.disk.contexts.get? place ≠ s.store.disk.contexts.get? place →
        t.store.disk.contexts.get? place = none ∧ ∃ key, place = Disk.place key ∧
          ¬ s.store.disk.Reaches service.root key ∧ key ∉ s.memory.unbound := by
  have hagrees : s.Agrees := fun key bindings hr => ⟨bindings, hfair.resident key bindings hr, rfl⟩
  obtain ⟨result, t, hserve, houtcome⟩ := Sweep.serve_within (s := s.closed) service.root hs.idle
    hagrees (Sweep.linkCount_lt_census s)
  refine ⟨result, t.opened, ?_, fun place hne => ?_⟩
  · rw [Sweep.serve_sweep service hs.free, hserve]
    rfl
  rcases houtcome with ⟨_, _, hd⟩ | ⟨w, hw, hq, hpruned⟩
  · have hsame : t.opened.store.disk = s.store.disk := hd
    exact absurd (by rw [hsame]) hne
  · rcases hpruned.records place with hsame | ⟨hgone, key, hp, hunseen, hunbound⟩
    · exact absurd hsame hne
    · refine ⟨hgone, key, hp, fun hr => hunseen ?_, hunbound⟩
      exact ((hw.sensible hs.idle hagrees).mem_seen_iff hq).mpr hr

/-- What a command leaves behind that fails because of the store: most leave the records as they
were, but those that save or remove more than one record may have got half way. -/
inductive Command.Leaves (service : Service) (s : Server) (t : Store) : Command → Prop
  | untouched {c : Command} (same : t.disk.contexts = s.store.disk.contexts) :
      Leaves service s t c
  | swept (garbage : ∀ place,
      t.disk.contexts.get? place ≠ s.store.disk.contexts.get? place →
        t.disk.contexts.get? place = none ∧ ∃ key, place = Disk.place key ∧
          ¬ s.store.disk.Reaches service.root key ∧ key ∉ s.memory.unbound) :
      Leaves service s t .sweep
  | made {text : String} {key : ContextKey} (leftover : s.store.Leftover t service.root key) :
      Leaves service s t (.makeContext text)
  | moved {text : String} {name : Name} {parent key : ContextKey} {last : Label}
      {after : List Binding} (read : Name.ofText text = .ok name)
      (found : s.store.disk.resolve service.root name = .ok (.context key))
      (back : s.store.disk.PutBack t.disk parent last (.context key) after) :
      Leaves service s t (.destroy text)
  | unbound {text : String} {name : Name} (read : Name.ofText text = .ok name)
      (refused : ¬ s.store.Willing)
      (removed : s.store.disk.unbind service.root name = .ok t.disk) :
      Leaves service s t (.destroy text)

/-- When a name that was unbound is bound again and all fails because of the store in the end, the
binding is the last of its context, or it could not be put back because a call was refused. -/
theorem Command.putBack_leaves {root parent key : ContextKey} {name : Name} {init : List Label}
    {last : Label} {d : Disk} {s t : Server} {refusal : Failure} {cause : StorageFailure}
    (hd : d.Regular) (hs : s.Ready) (hfair : s.Fair)
    (hunbinds : d.Unbinds root name init last parent (.context key) s.store.disk)
    (h : (do
      (⟨root, root⟩ : Context).bindContext name key
      throw refusal : Request String).serve s = some (.error (.storage cause), t)) :
    (¬ s.store.Willing ∧ t.store.disk = s.store.disk) ∨
      ∃ after, d.PutBack t.store.disk parent last (.context key) after := by
  have hback := hunbinds.bindsBack hd hfair.disk
  have hmutating : Operation.bindContext.isMutating = true := rfl
  have hbinds := (⟨root, root⟩ : Context).performs_bindTarget name (.context key) .fresh hmutating
  rcases Request.serve_bind_cases h with ⟨other, hbind, he⟩ | ⟨_, u, hbind, hthrow⟩
  · cases he
    have hcome := hbinds.fairly hs hfair hbind
    refine .inl ⟨fun hwilling => ?_, hcome.same⟩
    -- what keeps a binding from being put back is never the store, unless it refuses a call
    rw [map_error (hcome.exact hwilling)] at hback
    cases hback
  · cases hthrow
    obtain ⟨_, hbound, he⟩ := Store.map_ok (hbinds.fairly hs hfair hbind).told_ok
    cases he
    rw [hbound] at hback
    cases hback with
    | done apart back => exact .inr ⟨_, back⟩

/-- When a destroy fails because of the store, its binding is where it was, or the last of its
context, or it could not be put back because a call was refused. -/
theorem Command.destroyAt_leaves (root : ContextKey) (name : Name) {s t : Server}
    {cause : StorageFailure} (hs : s.Ready) (hfair : s.Fair)
    (h : (destroyAt ⟨root, root⟩ name).serve s = some (.error (.storage cause), t)) :
    t.store.disk = s.store.disk ∨
    (¬ s.store.Willing ∧ s.store.disk.unbind root name = .ok t.store.disk) ∨
    ∃ key parent last after, s.store.disk.resolve root name = .ok (.context key) ∧
      s.store.disk.PutBack t.store.disk parent last (.context key) after := by
  have hresolves := (⟨root, root⟩ : Context).views_resolveContext name
  rcases Request.serve_bind_cases h with ⟨_, hr, _⟩ | ⟨c, u, hr, hrest⟩
  · exact .inl (hresolves.fairly hs hfair hr).same
  obtain ⟨hfound, hud⟩ := hresolves.seen hs hfair hr
  have hu := hresolves.orderly.ready hs hr
  have hufair := hresolves.orderly.fair hs hfair hr
  obtain ⟨target, hresolve, hcontext⟩ := bind_ok hfound
  cases target with
  | object reference => cases hcontext
  | context key =>
    cases hcontext
    have hunbinding := (⟨root, root⟩ : Context).performs_unbind name
    rcases Request.serve_bind_cases hrest with ⟨_, hd, _⟩ | ⟨_, v, hd, hrest⟩
    · exact .inl ((hunbinding.fairly hu hufair hd).same.trans hud)
    obtain ⟨_, hunbind, he⟩ := Store.map_ok (hunbinding.fairly hu hufair hd).told_ok
    cases he
    rw [hud] at hunbind
    have hv := hunbinding.orderly.ready hu hd
    have hvfair := hunbinding.orderly.fair hu hufair hd
    obtain ⟨gone, init, last, parent, hgone, _, hunbinds⟩ :=
      Disk.unbind_bound hfair.disk hresolve
    cases hgone.symm.trans hunbind
    obtain ⟨destroyed, w, hdestroy, hrest⟩ := Request.serve_attempt_cases hrest
    cases destroyed with
    | ok _ => cases hrest
    | error refusal =>
      have hdestroys := (⟨root, key⟩ : Context).performs_destroy
      have hw := hdestroys.orderly.ready hv hdestroy
      have hwfair := hdestroys.orderly.fair hv hvfair hdestroy
      have hsame : w.store.disk = v.store.disk := (hdestroys.fairly hv hvfair hdestroy).same
      rcases Request.serve_bind_cases hrest with ⟨_, hnote, _⟩ | ⟨_, _, hnote, hrest⟩
      · cases hnote
      cases hnote
      rw [← hsame] at hunbinds
      rcases putBack_leaves hfair.disk (hw.note _) ⟨hwfair.disk, hwfair.resident⟩ hunbinds hrest
        with ⟨hrefused, hlost⟩ | ⟨after, hback⟩
      · have honward := (Job.run_onward hr).trans
          ((Job.run_onward hd).trans (Job.run_onward hdestroy))
        have hgone : t.store.disk = v.store.disk := hlost.trans hsame
        exact .inr (.inl ⟨fun h => hrefused (honward.fails.trans h), hgone ▸ hunbind⟩)
      · exact .inr (.inr ⟨key, parent, last, after, hresolve, hback⟩)

/-- A command that fails because of the store leaves no more behind than it may. -/
theorem Command.run_leaves [Drawing] (service : Service) (c : Command) {s t : Server}
    {cause : StorageFailure} (hs : s.AtRest) (hfair : s.Fair)
    (h : (c.run service).serve s = some (.error (.storage cause), t)) :
    c.Leaves service s t.store := by
  cases c with
  | sweep =>
    obtain ⟨result, u, hserve, hgarbage⟩ := service.sweep_prunes hs hfair
    rcases Request.serve_bind_cases h with ⟨_, hsweep, _⟩ | ⟨_, _, _, hreport⟩
    · rw [hsweep] at hserve
      cases hserve
      exact .swept hgarbage
    · cases hreport
  | makeContext text =>
    rcases readName_cases h with rfl | ⟨name, _, hmake⟩
    · exact .untouched rfl
    rcases Request.serve_bind_cases hmake with ⟨_, hmake, he⟩ | ⟨_, _, _, hlast⟩
    · cases he
      rcases Context.bindNewContext_leaves hs.ready hfair hmake with hsame | ⟨key, hleft⟩
      · exact .untouched hsame
      · exact .made hleft
    · cases hlast
  | destroy text =>
    rcases readName_cases h with rfl | ⟨name, hread, hdestroy⟩
    · exact .untouched rfl
    rcases destroyAt_leaves service.root name hs.ready hfair hdestroy with
      hsame | ⟨hrefused, hgone⟩ | ⟨key, parent, last, after, hfound, hback⟩
    · exact .untouched (congrArg Disk.contexts hsame)
    · exact .unbound hread hrefused hgone
    · exact .moved hread hfound hback
  | root | bind | rebind | resolve | unbind | list =>
    have hsame := (run_allOrNothing service rfl).failed hs.ready hfair h
    exact .untouched (congrArg Disk.contexts hsame)

/-- The user is told of a failure of the store that the operation was not applied. That is true of
all commands but three, which do more than save one record. -/
theorem Service.execute_leaves [Drawing] (service : Service) (c : Command) {s : Server}
    (hs : s.AtRest) (hfair : s.Fair) : ∃ result t, (service.execute c).serve s = some (result, t) ∧
      ∀ cause, result = .error (.storage cause) → c.Leaves service s t.store := by
  obtain ⟨result, t, hserve, _⟩ := service.execute_serves c hs
  refine ⟨result, t, hserve, fun cause hfailed => ?_⟩
  obtain ⟨outcome, u, hrun, hrest⟩ := Request.serve_attempt_cases hserve
  subst hfailed
  cases outcome with
  | ok _ => cases hrest
  | error failure =>
    cases hrest
    have hleaves := c.run_leaves service hs hfair hrun
    exact hleaves

/-- A server that is started on the disk of another one, where the record of a context has lost its
bytes. -/
def Server.damagedAt (s : Server) (key : ContextKey) : Server :=
  let disk := s.store.disk
  { store := { disk := { disk with contexts := disk.contexts.insert (Disk.place key) [] } },
    memory := {} }

theorem Server.Sound.damagedAt {s : Server} (h : s.Sound) (key : ContextKey) :
    (s.damagedAt key).AtRest ∧ (s.damagedAt key).Fair := by
  refine ⟨⟨rfl, rfl⟩, fun other bindings hload => ?_, nofun⟩
  have hget := Tree.get?_insert s.store.disk.contexts (Disk.place key) [] (Disk.place other)
  by_cases hplace : Disk.place other = Disk.place key
  · rw [if_pos hplace] at hget
    obtain ⟨raw, hraw, hread⟩ := Disk.load_some_iff.mp hload
    cases hget.symm.trans hraw
    cases hread
  · rw [if_neg hplace] at hget
    have hsame : (s.damagedAt key).store.disk.load other = s.store.disk.load other :=
      Disk.load_congr hget
    exact h.disk.regular (hsame ▸ hload)

/-- What is reported of a record that has lost its bytes. -/
def Service.emptied : StorageFailure := .corrupt "NC2" "io error: unexpected end of file"

/-- Two contexts that were never bound are garbage after a restart. The second is damaged, and the
first is gone when the sweep comes to it. -/
theorem Service.execute_leaves_swept : ∃ service s history t,
    firstRun [.newContext, .newContext] = some (service, s, history) ∧
      (service.execute .sweep).serve (s.damagedAt ⟨"NC2"⟩) =
        some (.error (.storage emptied), t) ∧
      t.store.disk.contains ⟨"NC1"⟩ = false ∧
      Command.sweep.Leaves service (s.damagedAt ⟨"NC2"⟩) t.store := by
  have hrun : (firstRun [.newContext, .newContext]).any (fun p =>
      ((p.1.execute .sweep).serve (p.2.1.damagedAt ⟨"NC2"⟩)).any fun q =>
        decide (q.1 = .error (.storage emptied) ∧
          q.2.store.disk.contains ⟨"NC1"⟩ = false)) = true := by
    decide +kernel
  obtain ⟨⟨service, s, history⟩, hrun, hswept⟩ := (Option.any_eq_true _ _).mp hrun
  obtain ⟨hrest, hfair⟩ := (Reached.firstRun hrun).settled.sound.damagedAt ⟨"NC2"⟩
  obtain ⟨result, t, hserve, hleaves⟩ := service.execute_leaves .sweep hrest hfair
  rw [hserve] at hswept
  obtain ⟨hfailed, hgone⟩ := of_decide_eq_true hswept
  exact ⟨service, s, history, t, hrun, hfailed ▸ hserve, hgone, hleaves _ hfailed⟩

/-- Not every command that fails because of the store leaves the records as they were, so the user
is told something that is not true. -/
theorem Service.execute_applies : ¬ ∀ (service : Service) (s t : Server) (c : Command)
    (cause : StorageFailure), s.AtRest → s.Fair →
    (service.execute c).serve s = some (.error (.storage cause), t) →
    t.store.disk.contexts = s.store.disk.contexts := by
  intro hclaim
  have hrun : (firstRun [.newContext, .newContext]).any (fun p =>
      ((p.1.execute .sweep).serve (p.2.1.damagedAt ⟨"NC2"⟩)).any fun q =>
        decide (q.1 = .error (.storage emptied) ∧ q.2.store.disk.contexts.keys ≠
          (p.2.1.damagedAt ⟨"NC2"⟩).store.disk.contexts.keys)) = true := by
    decide +kernel
  obtain ⟨⟨service, s, history⟩, hrun, hswept⟩ := (Option.any_eq_true _ _).mp hrun
  obtain ⟨⟨result, t⟩, hserve, hswept⟩ := (Option.any_eq_true _ _).mp hswept
  obtain ⟨hrest, hfair⟩ := (Reached.firstRun hrun).settled.sound.damagedAt ⟨"NC2"⟩
  obtain ⟨hfailed, hchanged⟩ := of_decide_eq_true hswept
  have hsame := hclaim service _ t .sweep emptied hrest hfair (hfailed ▸ hserve)
  exact hchanged (congrArg Tree.keys hsame)

end Naming
