import Naming.Listing.Frame
import Naming.Proofs.GateDiscipline
import Naming.Proofs.Encodings
import Naming.Proofs.EditsFramed

namespace Naming

variable {α : Type}

/-- A fair server with this disk that nobody else is using and whose store refuses nothing. -/
structure Server.Steady (s : Server) (d : Disk) : Prop where
  disk : s.store.disk = d
  ready : s.Ready
  fair : s.Fair
  willing : s.store.Willing

theorem Server.Steady.note {s : Server} {d : Disk} (h : s.Steady d) (event : Log.Event) :
    (s.note event).Steady d :=
  ⟨h.disk, h.ready.note event, ⟨h.fair.disk, h.fair.resident⟩, h.willing⟩

namespace Request

variable {r : Request α} {kinds : List StoreCall} {s : Server} {d e : Disk} {failure : Failure}

/-- On a steady server a request comes to what it is told. -/
theorem Performs.steady {told : Disk → Except Failure (α × Disk)} (h : r.Performs kinds told)
    (hs : s.Steady d) : ∃ result t, r.serve s = some (result, t) ∧ t.Steady t.store.disk ∧
      told d = result.map (·, t.store.disk) ∧ (result.isOk = false → t.store.disk = d) := by
  obtain ⟨rfl, hready, hfair, hwilling⟩ := hs
  obtain ⟨result, t, hserve, _⟩ := h.orderly.serves hready.idle fun _ => hready.opened
  have hcomes := h.fairly hready hfair hserve
  refine ⟨result, t, hserve, ⟨rfl, h.orderly.ready hready hserve,
    h.orderly.fair hready hfair hserve, (Job.run_fails hserve).trans hwilling⟩,
    hcomes.exact hwilling, fun hfailed => ?_⟩
  cases result with
  | ok a => cases hfailed
  | error failure => exact hcomes.same

theorem Performs.done {told : Disk → Except Failure (α × Disk)} {a : α} (h : r.Performs kinds told)
    (hs : s.Steady d) (htold : told d = .ok (a, e)) :
    ∃ t, r.serve s = some (.ok a, t) ∧ t.Steady e := by
  obtain ⟨result, t, hserve, ht, he, _⟩ := h.steady hs
  cases result with
  | ok b =>
    cases htold.symm.trans he
    exact ⟨t, hserve, ht⟩
  | error failure => cases htold.symm.trans he

theorem Performs.failed {told : Disk → Except Failure (α × Disk)} (h : r.Performs kinds told)
    (hs : s.Steady d) (htold : told d = .error failure) :
    ∃ t, r.serve s = some (.error failure, t) ∧ t.Steady d := by
  obtain ⟨result, t, hserve, ht, he, hsame⟩ := h.steady hs
  cases result with
  | ok b => cases htold.symm.trans he
  | error other =>
    cases htold.symm.trans he
    exact ⟨t, hserve, hsame rfl ▸ ht⟩

theorem Views.shown {view : Disk → Except Failure α} (h : r.Views kinds view)
    (hs : s.Steady d) : ∃ t, r.serve s = some (view d, t) ∧ t.Steady d := by
  cases hview : view d with
  | ok a =>
    have htold : (view d).map (·, d) = .ok (a, d) := congrArg (Except.map (·, d)) hview
    exact Performs.done h hs htold
  | error failure =>
    have htold : (view d).map (·, d) = .error failure := congrArg (Except.map (·, d)) hview
    exact Performs.failed h hs htold

end Request

/-- What unbinding a name and destroying its context comes to. -/
def Disk.destroyAt (d : Disk) (root : ContextKey) (name : Name) : Except Failure String × Disk :=
  match d.resolve root name with
  | .error failure => (.error failure, d)
  | .ok (.object _) => (.error (.notAContext name), d)
  | .ok (.context key) =>
    match d.unbind root name with
    | .error failure => (.error failure, d)
    | .ok gone =>
      match gone.destroy root key with
      | .ok e => (.ok s!"Destroyed {name.text} ({key.text})", e)
      | .error failure =>
        match gone.bind root name (.context key) .fresh with
        | .ok e => (.error failure, e)
        | .error other => (.error other, gone)

theorem Command.destroyAt_steady (root : ContextKey) (name : Name) {s : Server} {d : Disk}
    (hs : s.Steady d) : ∃ t, (destroyAt ⟨root, root⟩ name).serve s =
      some ((d.destroyAt root name).1, t) ∧ t.Steady (d.destroyAt root name).2 := by
  obtain ⟨u, hresolve, hu⟩ := ((⟨root, root⟩ : Context).views_resolve name).shown hs
  unfold destroyAt Context.resolveContext Disk.destroyAt
  rw [Request.bind_assoc, Request.serve_bind, hresolve]
  dsimp only
  cases d.resolve root name with
  | error failure => exact ⟨u, rfl, hu⟩
  | ok target =>
    cases target with
    | object reference => exact ⟨u, rfl, hu⟩
    | context key =>
      have hunbinds := (⟨root, root⟩ : Context).performs_unbind name
      have hdestroys := (⟨root, key⟩ : Context).performs_destroy
      have hmutating : Operation.bindContext.isMutating = true := rfl
      have hbinds := (⟨root, root⟩ : Context).performs_bindTarget name (.context key) .fresh
        hmutating
      dsimp only
      change ∃ t, Request.serve (Context.unbind ⟨root, root⟩ name >>= _) u = _ ∧ _
      rw [Request.serve_bind]
      cases hunbind : d.unbind root name with
      | error failure =>
        obtain ⟨v, hserve, hv⟩ := hunbinds.failed hu (congrArg (Except.map _) hunbind)
        rw [hserve]
        exact ⟨v, rfl, hv⟩
      | ok gone =>
        obtain ⟨v, hserve, hv⟩ := hunbinds.done hu (congrArg (Except.map _) hunbind)
        rw [hserve]
        dsimp only
        rw [Request.serve_bind, Request.serve_attempt]
        cases hdestroy : gone.destroy root key with
        | ok e =>
          obtain ⟨w, hserve, hw⟩ := hdestroys.done hv (congrArg (Except.map _) hdestroy)
          rw [hserve]
          exact ⟨w, rfl, hw⟩
        | error failure =>
          obtain ⟨w, hserve, hw⟩ := hdestroys.failed hv (congrArg (Except.map _) hdestroy)
          rw [hserve]
          change ∃ t, Request.serve
            (Context.bindContext ⟨root, root⟩ name key >>= fun _ => throw failure) (w.note _) =
              _ ∧ _
          rw [Request.serve_bind]
          cases hbind : gone.bind root name (.context key) .fresh with
          | ok e =>
            obtain ⟨x, hserve, hx⟩ := hbinds.done (hw.note _) (congrArg (Except.map _) hbind)
            rw [Context.bindContext, hserve]
            exact ⟨x, rfl, hx⟩
          | error other =>
            obtain ⟨x, hserve, hx⟩ := hbinds.failed (hw.note _) (congrArg (Except.map _) hbind)
            rw [Context.bindContext, hserve]
            exact ⟨x, rfl, hx⟩

/-- The outcome of a command is what it comes to, put on record. -/
theorem Service.execute_run [Drawing] {service : Service} {c : Command} {s t : Server}
    {result : Except Failure String} (h : (c.run service).serve s = some (result, t)) :
    ∃ event, (service.execute c).serve s = some (result, t.note event) := by
  unfold Service.execute
  rw [Request.serve_bind, Request.serve_attempt, h]
  exact ⟨_, rfl⟩

theorem Service.destroy_steady [Drawing] (service : Service) (text : String) {s : Server} {d : Disk}
    (hs : s.Steady d) :
    (∃ fault t, Name.ofText text = .error fault ∧
      (service.execute (.destroy text)).serve s = some (.error (.ofFault fault), t) ∧
      t.Steady d) ∨
    ∃ name t, Name.ofText text = .ok name ∧ (service.execute (.destroy text)).serve s =
      some ((d.destroyAt service.root name).1, t) ∧ t.Steady (d.destroyAt service.root name).2 := by
  cases hname : Name.ofText text with
  | error fault =>
    have hrun : (Command.run service (.destroy text)).serve s =
        some (.error (.ofFault fault), s) := by
      simp only [Command.run, Command.readName, hname]
      rfl
    obtain ⟨event, hserve⟩ := service.execute_run hrun
    exact .inl ⟨fault, _, rfl, hserve, hs.note event⟩
  | ok name =>
    obtain ⟨t, hdestroy, ht⟩ := Command.destroyAt_steady service.root name hs
    have hrun : (Command.run service (.destroy text)).serve s =
        some ((d.destroyAt service.root name).1, t) := by
      simp only [Command.run, Command.readName, hname]
      exact hdestroy
    obtain ⟨event, hserve⟩ := service.execute_run hrun
    exact .inr ⟨name, _, rfl, hserve, ht.note event⟩

/-- A record whose bindings all stand in another one, and that has no more of them, fits if that
one does. -/
theorem Record.fits_of_fewer {version : Nat} {key : ContextKey} {s t : BindingSet}
    (h : (Record.mk version key s).fits = true) (hsize : t.size ≤ s.size)
    (hentries : ∀ b ∈ t.entries, b ∈ s.entries) : (Record.mk version key t).fits = true := by
  simp only [fits, Bool.and_eq_true, decide_eq_true_eq, List.all_eq_true] at h ⊢
  obtain ⟨⟨hkey, hlimit⟩, hall⟩ := h
  exact ⟨⟨hkey, Nat.lt_of_le_of_lt hsize hlimit⟩, fun b hb => hall b (hentries b hb)⟩

theorem BindingSet.entries_insert {s t : BindingSet} {b : Binding} (h : s.insert b = .ok t) :
    t.entries = s.entries ++ [b] := by
  obtain ⟨_, rfl⟩ := insert_ok h
  rfl

namespace BindingSet.Revised

variable {name : Component} {target : Target} {entries rest final : List Binding}

/-- What is left when a name is bound to nothing any more stood there before. -/
theorem fewer (h : Revised name none entries rest) :
    rest.length < entries.length ∧ ∀ b ∈ rest, b ∈ entries := by
  cases h with
  | removed same others =>
    refine ⟨by simp, fun b hb => ?_⟩
    rcases List.mem_append.mp hb with hbefore | hafter
    · exact List.mem_append_left _ hbefore
    · exact List.mem_append_right _ (List.mem_cons_of_mem _ hafter)

/-- A name that is bound to nothing and then to what it was bound to goes to the end. -/
theorem moves (h : Revised name none entries rest) (h' : Revised name (some target) rest final)
    (hb : ⟨name, target⟩ ∈ entries) : ∃ before after,
      entries = before ++ ⟨name, target⟩ :: after ∧
        final = before ++ after ++ [⟨name, target⟩] := by
  cases h with
  | removed same others =>
    rename_i old before after
    have hold : (⟨name, target⟩ : Binding) = old := by
      by_contra hne
      have hrest : (⟨name, target⟩ : Binding) ∈ before ++ after := by
        simp only [List.mem_append, List.mem_cons] at hb ⊢
        tauto
      exact others _ hrest rfl
    generalize hr : before ++ after = left at h' others
    cases h' with
    | added free => exact ⟨before, after, hold ▸ rfl, hr ▸ rfl⟩
    | replaced same' =>
      refine absurd same' (others _ ?_)
      exact List.mem_append_right _ List.mem_cons_self

end BindingSet.Revised

namespace Disk

variable {d gone : Disk} {root key parent : ContextKey} {name : Name} {init : List Label}
  {last : Label} {target : Target} {bindings : BindingSet}

theorem fits_of_load (h : d.load key = .ok (some bindings)) :
    (Record.mk Record.currentVersion key bindings).fits = true := by
  obtain ⟨raw, _, hread⟩ := load_some_iff.mp h
  exact (readRecord_ok_iff.mp hread).1.1

theorem put_of_fits (h : (Record.mk Record.currentVersion key bindings).fits = true) (d : Disk) :
    ∃ e, d.put key bindings = .ok e := by
  rw [put_eq_if, if_pos h]
  exact ⟨_, rfl⟩

/-- What a label is bound to stands in the record of the context. -/
theorem mem_of_bound (hd : d.Regular) (hload : d.load key = .ok (some bindings))
    (hbound : d.bound key last = some target) : ⟨last.val, target⟩ ∈ bindings.entries := by
  rw [bound_of_load hload] at hbound
  obtain ⟨b, hget, rfl⟩ := Option.map_eq_some_iff.mp hbound
  obtain ⟨hb, hname⟩ := (hd.regular hload).get?_iff.mp hget
  exact hname ▸ hb

/-- A name was unbound: the label that binds it is taken out of the context to which the labels
before it lead, and nothing else is different. -/
structure Unbinds (d : Disk) (root : ContextKey) (name : Name) (init : List Label) (last : Label)
    (parent : ContextKey) (target : Target) (gone : Disk) : Prop where
  labels : name.labels = init ++ [last]
  leads : d.Leads root init parent
  bound : d.bound parent last = some target
  revises : d.Revises gone parent last none

/-- What a name is bound to can be unbound. -/
theorem unbind_bound (hd : d.Regular) (h : d.resolve root name = .ok target) :
    ∃ gone init last parent, d.unbind root name = .ok gone ∧ gone.Regular ∧
      d.Unbinds root name init last parent target gone := by
  obtain ⟨init, last, parent, hlabels, hleads, hbound⟩ := resolve_ok_iff.mp h
  obtain ⟨bindings, b, hload, hget, _⟩ := bound_some hbound
  have hisSome : (bindings.get? last.val).isSome = true := by
    rw [hget]
    rfl
  obtain ⟨hlength, hentries⟩ := ((hd.regular hload).revised_remove hisSome).fewer
  have hfits := Record.fits_of_fewer (fits_of_load hload) (Nat.le_of_lt hlength) hentries
  obtain ⟨gone, hput⟩ := put_of_fits hfits d
  have hunbind : d.unbindLast parent last = .ok gone := by
    simp only [unbindLast, look_stored hload, Bind.bind, Except.bind, hisSome, if_true]
    exact hput
  have hgone : gone.Regular := hd.save ((hd.regular hload).remove last.val) (put_ok hput)
  refine ⟨gone, init, last, parent, ?_, hgone, hlabels, hleads, hbound,
    unbindLast_revises hd hunbind⟩
  simp only [unbind, walkFrom_ok_iff.mpr ⟨init, hlabels, hleads⟩, Bind.bind, Except.bind]
  exact hunbind

/-- Two records look the same when the same names are bound to the same in them, or when they
cannot be read for the same reason. -/
def LooksLike (d e : Disk) (key : ContextKey) : Prop :=
  e.load key = d.load key ∨ ∃ s t, d.load key = .ok (some s) ∧ e.load key = .ok (some t) ∧
    ∀ name, t.get? name = s.get? name

theorem LooksLike.look {d e : Disk} (h : d.LooksLike e key) {view : BindingSet → Except Failure α}
    (hview : ∀ s t : BindingSet, (∀ name, t.get? name = s.get? name) → view t = view s) :
    e.look key view = d.look key view := by
  rcases h with hload | ⟨s, t, hs, ht, hget⟩
  · exact look_congr view hload
  · rw [look_stored hs, look_stored ht, hview s t hget]

/-- Where all records look the same every name means the same. -/
theorem resolve_alike {d e : Disk} (h : ∀ key, d.LooksLike e key) (key : ContextKey)
    (name : Name) : e.resolve key name = d.resolve key name := by
  have hchild : ∀ key left,
      e.look key (Context.childIn left) = d.look key (Context.childIn left) :=
    fun key left => (h key).look fun s t hget => by rw [Context.childIn, Context.childIn, hget]
  have htarget : ∀ key last,
      e.look key (Context.targetIn last) = d.look key (Context.targetIn last) :=
    fun key last => (h key).look fun s t hget => by rw [Context.targetIn, Context.targetIn, hget]
  have hwalk : ∀ rest first key, e.walkFrom key first rest = d.walkFrom key first rest := by
    intro rest
    induction rest with
    | nil => intro first key; rfl
    | cons second rest ih => intro first key; simp only [walkFrom, hchild, ih]
  simp only [resolve, hwalk, htarget]

/-- Bindings that were read from records are told by their entries. -/
theorem load_entries_inj {d e : Disk} {s t : BindingSet} (hs : d.load key = .ok (some s))
    (ht : e.load key = .ok (some t)) (h : t.entries = s.entries) : t = s := by
  obtain ⟨_, _, hs⟩ := load_some_iff.mp hs
  obtain ⟨_, _, ht⟩ := load_some_iff.mp ht
  rw [(readRecord_ok_iff.mp hs).2, (readRecord_ok_iff.mp ht).2, h]

/-- The order of the bindings makes no difference to what a name finds. -/
theorem get?_permuted {s t : BindingSet} (hs : s.Regular) (ht : t.Regular)
    (h : ∀ b, b ∈ t.entries ↔ b ∈ s.entries) (name : Component) : t.get? name = s.get? name := by
  refine Option.ext fun b => ?_
  rw [ht.get?_iff, hs.get?_iff, h]

/-- A binding was taken away and put back: it is the last of its context now, and nothing else is
different. Every name means what it meant. -/
structure PutBack (d e : Disk) (parent : ContextKey) (last : Label) (target : Target)
    (after : List Binding) : Prop where
  order : ∃ stored changed before, d.load parent = .ok (some stored) ∧
    e.load parent = .ok (some changed) ∧
    stored.entries = before ++ ⟨last.val, target⟩ :: after ∧
    changed.entries = before ++ after ++ [⟨last.val, target⟩]
  others : ∀ other, other ≠ parent → e.load other = d.load other
  names : ∀ start name, e.resolve start name = d.resolve start name

theorem Revises.putBack {d e : Disk} (h : d.Revises gone parent last none)
    (h' : gone.Revises e parent last (some target)) (hd : d.Regular) (he : e.Regular)
    (hbound : d.bound parent last = some target) :
    ∃ after, d.PutBack e parent last target after := by
  obtain ⟨stored, left, hload, hleft, hremoved⟩ := h.bindings
  obtain ⟨left', changed, hleft', hreload, hadded⟩ := h'.bindings
  cases hleft.symm.trans hleft'
  obtain ⟨before, after, hstored, hchanged⟩ :=
    hremoved.moves hadded (mem_of_bound hd hload hbound)
  have hothers : ∀ other, other ≠ parent → e.load other = d.load other :=
    fun other hne => load_congr ((h'.others other hne).trans (h.others other hne))
  refine ⟨after, ⟨stored, changed, before, hload, hreload, hstored, hchanged⟩, hothers, ?_⟩
  apply resolve_alike
  intro other
  by_cases hparent : other = parent
  · subst hparent
    refine .inr ⟨stored, changed, hload, hreload, ?_⟩
    apply get?_permuted (hd.regular hload) (he.regular hreload)
    intro b
    rw [hstored, hchanged]
    simp only [List.mem_append, List.mem_cons, List.not_mem_nil, or_false]
    tauto
  · exact .inl (hothers other hparent)

/-- A binding that was the last before is where it was. -/
theorem PutBack.same {d e : Disk} (h : d.PutBack e parent last target []) (other : ContextKey) :
    e.load other = d.load other := by
  by_cases hparent : other = parent
  · obtain ⟨stored, changed, before, hload, hreload, hstored, hchanged⟩ := h.order
    have hsame : changed = stored :=
      load_entries_inj hload hreload (by rw [hchanged, hstored, List.append_nil])
    rw [hparent, hload, hreload, hsame]
  · exact h.others other hparent

/-- What was unbound can be bound again if it may be bound there, and if the name does not lead
through it. -/
theorem Unbinds.bind (h : d.Unbinds root name init last parent target gone) (hd : d.Regular)
    (hgone : gone.Regular) (hapart : ¬ d.LooksUp parent last root init)
    (haccepts : gone.accepts parent target = .ok ()) :
    ∃ e after, gone.bind root name target .fresh = .ok e ∧
      d.PutBack e parent last target after := by
  obtain ⟨stored, changed, hload, hchanged, hrevised⟩ := h.revises.bindings
  obtain ⟨hlength, hentries⟩ := hrevised.fewer
  have hfree : changed.get? last.val = none := by
    obtain ⟨_, hsame, hfree⟩ := h.revises.unbound
    cases hchanged.symm.trans hsame
    exact hfree
  obtain ⟨restored, hinsert⟩ := (hgone.regular hchanged).insert_free (b := ⟨last.val, target⟩) hfree
  have hfits : (Record.mk Record.currentVersion parent restored).fits = true := by
    have hrestored := BindingSet.entries_insert hinsert
    refine Record.fits_of_fewer (fits_of_load hload) ?_ fun b hb => ?_
    · rw [BindingSet.size, hrestored, List.length_append, List.length_singleton]
      exact hlength
    · rw [hrestored] at hb
      rcases List.mem_append.mp hb with hold | hnew
      · exact hentries b hold
      · exact List.mem_singleton.mp hnew ▸ mem_of_bound hd hload h.bound
  obtain ⟨e, hput⟩ := put_of_fits hfits gone
  have hbindLast : gone.bindLast parent last target .fresh = .ok e := by
    simp only [bindLast, look_stored hchanged, Bind.bind, Except.bind, haccepts,
      Context.Placement.change, hinsert, Except.map]
    exact hput
  have he : e.Regular := hgone.save ((hgone.regular hchanged).insert hinsert) (put_ok hput)
  obtain ⟨after, hback⟩ := h.revises.putBack (bindLast_revises hgone hbindLast) hd he h.bound
  refine ⟨e, after, ?_, hback⟩
  have hstill := h.leads.transfer (h.revises.alike_off hapart)
  simp only [Disk.bind, walkFrom_ok_iff.mpr ⟨init, h.labels, hstill⟩, Bind.bind, Except.bind]
  exact hbindLast

/-- What may not be bound stays unbound. -/
theorem Unbinds.bind_rejected {failure : Failure}
    (h : d.Unbinds root name init last parent target gone)
    (hapart : ¬ d.LooksUp parent last root init)
    (hrejects : gone.accepts parent target = .error failure) :
    gone.bind root name target .fresh = .error failure ∧
      gone.resolve root name = .error (.notFound (.single last)) := by
  obtain ⟨changed, hchanged, hfree⟩ := h.revises.unbound
  have hstill := h.leads.transfer (h.revises.alike_off hapart)
  have hname : name.labels = init ++ (Name.single last).labels := h.labels
  refine ⟨?_, resolve_unbound hstill hname hchanged hfree⟩
  simp only [Disk.bind, walkFrom_ok_iff.mpr ⟨init, h.labels, hstill⟩, bindLast,
    look_stored hchanged, hrejects, Bind.bind, Except.bind]

/-- A name that leads through what was unbound is not found any more from there on. -/
theorem Unbinds.bind_severed (h : d.Unbinds root name init last parent target gone)
    (hthrough : d.LooksUp parent last root init) : ∃ before rest,
      name.labels = before ++ last :: rest ∧ rest ≠ [] ∧ d.Leads root before parent ∧
      gone.bind root name target .fresh = .error (.notFound ⟨last, rest⟩) ∧
      gone.resolve root name = .error (.notFound ⟨last, rest⟩) := by
  obtain ⟨before, after, rfl, hleads, hnot⟩ := hthrough.first
  have hname : name.labels = before ++ (⟨last, after ++ [last]⟩ : Name).labels := by
    rw [h.labels, List.append_assoc, List.cons_append]
    rfl
  have hrest : after ++ [last] ≠ [] := List.append_ne_nil_of_right_ne_nil _ nofun
  obtain ⟨changed, hchanged, hfree⟩ := h.revises.unbound
  have hstill := hleads.transfer (h.revises.alike_off hnot)
  have hwalk := (hstill.walkFrom hname).trans (walkFrom_unbound hchanged hfree hrest)
  refine ⟨before, after ++ [last], hname, hrest, hleads, ?_, ?_⟩
  · simp only [Disk.bind, hwalk, Bind.bind, Except.bind]
  · exact resolve_unbound hstill hname hchanged hfree

/-- A context can be bound where it was unbound, or it has no record. -/
theorem Unbinds.accepts (h : d.Unbinds root name init last parent (.context key) gone) :
    gone.accepts parent (.context key) = .ok () ∨ key ≠ root ∧ d.contains key = false ∧
      gone.contains key = false ∧ gone.accepts parent (.context key) = .error (.noContext key) := by
  by_cases hself : key = parent
  · exact .inl (by rw [Disk.accepts, if_pos hself])
  have hsame : gone.contains key = d.contains key := by
    rw [contains_eq, contains_eq, h.revises.others key hself]
  rw [Disk.accepts, if_neg hself, hsame]
  cases hstored : d.contains key with
  | true => exact .inl rfl
  | false =>
    refine .inr ⟨?_, rfl, rfl, rfl⟩
    -- the root has a record, as the labels are looked up there or the name is bound there
    rintro rfl
    cases h.leads with
    | here => exact hself rfl
    | through link others =>
      obtain ⟨bindings, _, hload, _⟩ := bound_some link
      rw [contains_of_load hload] at hstored
      cases hstored

/-- What comes of binding a context again that was unbound. -/
inductive BindsBack (d : Disk) (root : ContextKey) (name : Name) (init : List Label) (last : Label)
    (parent key : ContextKey) (gone : Disk) : Except Failure Disk → Prop
  | done {e : Disk} {after : List Binding} (apart : ¬ d.LooksUp parent last root init)
      (back : d.PutBack e parent last (.context key) after) :
      BindsBack d root name init last parent key gone (.ok e)
  | missing (apart : ¬ d.LooksUp parent last root init) (other : key ≠ root)
      (dangling : d.contains key = false) (absent : gone.contains key = false)
      (lost : gone.resolve root name = .error (.notFound (.single last))) :
      BindsBack d root name init last parent key gone (.error (.noContext key))
  | severed {before rest : List Label} (through : d.LooksUp parent last root init)
      (labels : name.labels = before ++ last :: rest) (inner : rest ≠ [])
      (leads : d.Leads root before parent)
      (lost : gone.resolve root name = .error (.notFound ⟨last, rest⟩)) :
      BindsBack d root name init last parent key gone (.error (.notFound ⟨last, rest⟩))

theorem Unbinds.bindsBack (h : d.Unbinds root name init last parent (.context key) gone)
    (hd : d.Regular) (hgone : gone.Regular) : d.BindsBack root name init last parent key gone
      (gone.bind root name (.context key) .fresh) := by
  by_cases hthrough : d.LooksUp parent last root init
  · obtain ⟨before, rest, hname, hinner, hleads, hbind, hlost⟩ := h.bind_severed hthrough
    exact hbind ▸ .severed hthrough hname hinner hleads hlost
  rcases h.accepts with haccepts | ⟨hother, hdangling, habsent, hrejects⟩
  · obtain ⟨e, after, hbind, hback⟩ := h.bind hd hgone hthrough haccepts
    exact hbind ▸ .done hthrough hback
  · obtain ⟨hbind, hlost⟩ := h.bind_rejected hthrough hrejects
    exact hbind ▸ .missing hthrough hother hdangling habsent hlost

/-- What a destroy leaves behind that fails. The binding that was taken away is put back as the last
of its parent, or it is lost: without a record, or when the name leads through the binding. -/
inductive Undone (d : Disk) (root : ContextKey) (name : Name) : Failure → Disk → Prop
  | unresolved {failure : Failure} (stop : d.resolve root name = .error failure) :
      Undone d root name failure d
  | object {reference : String} (found : d.resolve root name = .ok (.object reference)) :
      Undone d root name (.notAContext name) d
  | restored {init : List Label} {last : Label} {parent key : ContextKey} {gone e : Disk}
      {failure : Failure} (unbinds : d.Unbinds root name init last parent (.context key) gone)
      (refusal : gone.destroy root key = .error failure)
      (apart : ¬ d.LooksUp parent last root init) (same : ∀ other, e.load other = d.load other) :
      Undone d root name failure e
  | moved {init : List Label} {last : Label} {parent key : ContextKey} {gone e : Disk}
      {failure : Failure} {after : List Binding}
      (unbinds : d.Unbinds root name init last parent (.context key) gone)
      (refusal : gone.destroy root key = .error failure)
      (apart : ¬ d.LooksUp parent last root init) (more : after ≠ [])
      (back : d.PutBack e parent last (.context key) after) : Undone d root name failure e
  | missing {init : List Label} {last : Label} {parent key : ContextKey} {gone : Disk}
      (unbinds : d.Unbinds root name init last parent (.context key) gone)
      (refusal : gone.destroy root key = .error (.noContext key))
      (apart : ¬ d.LooksUp parent last root init) (dangling : d.contains key = false)
      (lost : gone.resolve root name = .error (.notFound (.single last))) :
      Undone d root name (.noContext key) gone
  | severed {init before rest : List Label} {last : Label} {parent key : ContextKey}
      {gone : Disk} {failure : Failure}
      (unbinds : d.Unbinds root name init last parent (.context key) gone)
      (refusal : gone.destroy root key = .error failure)
      (through : d.LooksUp parent last root init) (labels : name.labels = before ++ last :: rest)
      (inner : rest ≠ []) (leads : d.Leads root before parent)
      (lost : gone.resolve root name = .error (.notFound ⟨last, rest⟩)) :
      Undone d root name (.notFound ⟨last, rest⟩) gone

/-- A destroy that succeeds has unbound the name and removed the record of the context. -/
theorem destroyAt_ok {report : String} (h : (d.destroyAt root name).1 = .ok report) :
    ∃ key gone, d.resolve root name = .ok (.context key) ∧ d.unbind root name = .ok gone ∧
      gone.destroy root key = .ok (d.destroyAt root name).2 := by
  unfold destroyAt at h ⊢
  cases hresolve : d.resolve root name with
  | error failure =>
    rw [hresolve] at h
    cases h
  | ok target =>
    cases target with
    | object reference =>
      rw [hresolve] at h
      cases h
    | context key =>
      cases hunbind : d.unbind root name with
      | error failure =>
        rw [hresolve, hunbind] at h
        cases h
      | ok gone =>
        cases hdestroy : gone.destroy root key with
        | ok e => exact ⟨key, gone, rfl, rfl, by simp only [hdestroy]⟩
        | error failure =>
          simp only [hresolve, hunbind, hdestroy] at h
          split at h <;> cases h

/-- A destroy that fails comes to one of these. -/
theorem destroyAt_undone (hd : d.Regular) {failure : Failure}
    (h : (d.destroyAt root name).1 = .error failure) :
    d.Undone root name failure (d.destroyAt root name).2 := by
  unfold destroyAt at h ⊢
  cases hresolve : d.resolve root name with
  | error other =>
    rw [hresolve] at h
    cases h
    exact .unresolved hresolve
  | ok target =>
    cases target with
    | object reference =>
      rw [hresolve] at h
      cases h
      exact .object hresolve
    | context key =>
      obtain ⟨gone, init, last, parent, hunbind, hgone, hunbinds⟩ := unbind_bound hd hresolve
      simp only [hresolve, hunbind] at h ⊢
      cases hdestroy : gone.destroy root key with
      | ok e =>
        rw [hdestroy] at h
        cases h
      | error refusal =>
        have hback := hunbinds.bindsBack hd hgone
        simp only [hdestroy] at h ⊢
        -- what is left depends only on whether and why the binding could not be put back
        generalize gone.bind root name (.context key) .fresh = bound at hback h
        cases hback with
        | done apart back =>
          cases h
          rename_i e after
          cases after with
          | nil => exact .restored hunbinds hdestroy apart back.same
          | cons b after => exact .moved hunbinds hdestroy apart (List.cons_ne_nil b after) back
        | missing apart other dangling absent lost =>
          cases h
          rw [destroy, if_neg other, look_unknown absent] at hdestroy
          cases hdestroy
          refine .missing hunbinds ?_ apart dangling lost
          rw [destroy, if_neg other, look_unknown absent]
          rfl
        | severed through labels inner leads lost =>
          cases h
          exact .severed hunbinds hdestroy through labels inner leads lost

end Disk

/-- A destroy that fails after it has unbound the name does not leave all as it was: the binding is
put back as the last of its parent, or it is lost. -/
theorem Service.destroy_undone [Drawing] (service : Service) (text : String) {s : Server}
    (hs : s.AtRest) (hfair : s.Fair) (hwilling : s.store.Willing) : ∃ result t,
      (service.execute (.destroy text)).serve s = some (result, t) ∧
      (∀ report, result = .ok report → ∃ name key gone, Name.ofText text = .ok name ∧
        s.store.disk.resolve service.root name = .ok (.context key) ∧
        s.store.disk.unbind service.root name = .ok gone ∧
        gone.destroy service.root key = .ok t.store.disk) ∧
      ∀ failure, result = .error failure →
        (∃ fault, Name.ofText text = .error fault ∧ failure = .ofFault fault ∧
          t.store.disk = s.store.disk) ∨
        ∃ name, Name.ofText text = .ok name ∧
          s.store.disk.Undone service.root name failure t.store.disk := by
  have hsteady : s.Steady s.store.disk := ⟨rfl, hs.ready, hfair, hwilling⟩
  rcases service.destroy_steady text hsteady with
    ⟨fault, t, hread, hserve, ht⟩ | ⟨name, t, hread, hserve, ht⟩
  · refine ⟨_, t, hserve, nofun, fun failure hfailed => .inl ⟨fault, hread, ?_, ht.disk⟩⟩
    cases hfailed
    rfl
  · refine ⟨_, t, hserve, fun report hdone => ?_, fun failure hfailed => .inr ⟨name, hread, ?_⟩⟩
    · obtain ⟨key, gone, hresolve, hunbind, hdestroy⟩ := Disk.destroyAt_ok hdone
      exact ⟨name, key, gone, hread, hresolve, hunbind, ht.disk.symm ▸ hdestroy⟩
    · rw [ht.disk]
      exact Disk.destroyAt_undone hfair.disk hfailed

/-- Two names are bound in the root, the first to a context that is not empty. -/
def Service.crowded : List Task :=
  [.call ⟨"NC0"⟩ (.bindNewContext (.single ⟨.ofId "a", Eq.refl true⟩)),
    .call ⟨"NC1"⟩ (.bind (.single ⟨.ofId "x", Eq.refl true⟩) "deep"),
    .call ⟨"NC0"⟩ (.bind (.single ⟨.ofId "b", Eq.refl true⟩) "beside")]

/-- The context is not empty and stays, but its binding is the last one now. -/
theorem Service.destroy_undone_moved : ∃ service s history result t,
    firstRun crowded = some (service, s, history) ∧
      (service.execute (.destroy "a")).serve s = some (result, t) ∧
      result = .error (.notEmpty ⟨"NC1"⟩) ∧
      (t.store.disk.load ⟨"NC0"⟩).toOption.join.map BindingSet.entries =
        some [⟨.ofId "b", .object "beside"⟩, ⟨.ofId "a", .context ⟨"NC1"⟩⟩] ∧
      ∃ name, Name.ofText "a" = .ok name ∧
        s.store.disk.Undone service.root name (.notEmpty ⟨"NC1"⟩) t.store.disk := by
  have hrun : (firstRun crowded).any (fun p =>
      ((p.1.execute (.destroy "a")).serve p.2.1).any fun q =>
        decide (q.1 = .error (.notEmpty ⟨"NC1"⟩) ∧
          (q.2.store.disk.load ⟨"NC0"⟩).toOption.join.map BindingSet.entries =
            some [⟨.ofId "b", .object "beside"⟩, ⟨.ofId "a", .context ⟨"NC1"⟩⟩])) = true := by
    decide +kernel
  obtain ⟨⟨service, s, history⟩, hrun, hfails⟩ := (Option.any_eq_true _ _).mp hrun
  have hsettled := (Reached.firstRun hrun).settled
  obtain ⟨result, t, hserve, _, hundone⟩ :=
    service.destroy_undone "a" hsettled.rest hsettled.sound.fair hsettled.faults
  rw [hserve] at hfails
  obtain ⟨hfailed, hmoved⟩ := of_decide_eq_true hfails
  rcases hundone _ hfailed with ⟨fault, hread, hfault, _⟩ | hundone
  · cases hfault
  · exact ⟨service, s, history, result, t, hrun, hserve, hfailed, hmoved, hundone⟩

/-- Two names are bound to one context, whose record is removed through the first. -/
def Service.dangling : List Task :=
  [.newContext, .call ⟨"NC0"⟩ (.bindContext (.single ⟨.ofId "a", Eq.refl true⟩) ⟨"NC1"⟩),
    .call ⟨"NC0"⟩ (.bindContext (.single ⟨.ofId "b", Eq.refl true⟩) ⟨"NC1"⟩),
    .call ⟨"NC1"⟩ .destroy]

/-- Not every destroy that fails leaves the records as they were: what is bound to a context
without a record is unbound. -/
theorem Service.destroy_loses_binding : ¬ ∀ (fails : StoreCall → Nat → Bool) (service : Service)
    (s t : Server) (history : History) (text : String) (failure : Failure),
    Reached fails (some service) s history → s.store.Willing →
    (service.execute (.destroy text)).serve s = some (.error failure, t) →
    ∀ key, t.store.disk.load key = s.store.disk.load key := by
  intro hclaim
  have hrun : (firstRun dangling).any (fun p =>
      ((p.1.execute (.destroy "b")).serve p.2.1).any fun q =>
        decide (q.1.isOk = false ∧
          (q.2.store.disk.load ⟨"NC0"⟩).toOption.join.map BindingSet.entries ≠
            (p.2.1.store.disk.load ⟨"NC0"⟩).toOption.join.map BindingSet.entries)) = true := by
    decide +kernel
  obtain ⟨⟨service, s, history⟩, hrun, hdestroyed⟩ := (Option.any_eq_true _ _).mp hrun
  obtain ⟨⟨result, t⟩, hserve, hlost⟩ := (Option.any_eq_true _ _).mp hdestroyed
  obtain ⟨hfailed, hlost⟩ := of_decide_eq_true hlost
  have hreached := Reached.firstRun hrun
  cases result with
  | ok report => cases hfailed
  | error failure =>
    have hsame := hclaim _ service s t history "b" failure hreached hreached.settled.faults hserve
    exact hlost (by rw [hsame ⟨"NC0"⟩])

end Naming
