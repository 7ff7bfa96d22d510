import Naming.Proofs.ReachedAtRest

namespace Naming

variable {s t : Server} {service : Service}

namespace Target

/-- Whether a target is an object whose reference reads like the key of a context. -/
def isMarked : Target → Bool
  | object reference => "context:".toList.isPrefixOf reference.toList
  | context _ => false

theorem ofText_context (key : ContextKey) : ofText (context key).text = context key := by
  have htext : (context key).text.toList = "context:".toList ++ key.text.toList :=
    String.toList_append
  have hmarked : "context:".toList.isPrefixOf (context key).text.toList = true := by
    rw [htext, List.isPrefixOf_iff_prefix]
    exact List.prefix_append _ _
  have hlength : "context:".toList.length = "context:".length := String.length_toList
  unfold ofText
  rw [if_pos hmarked, htext, List.drop_left' hlength, String.ofList_toList]

theorem ofText_marked {reference : String} (h : (object reference).isMarked = true) :
    ∃ key, ofText reference = context key :=
  ⟨_, if_pos h⟩

/-- Every target is read back from its text but an object whose reference reads like a context. -/
theorem ofText_text_iff {t : Target} : ofText t.text = t ↔ t.isMarked = false := by
  cases t with
  | object reference =>
    refine ⟨fun h => Bool.eq_false_iff.mpr fun hmarked => ?_,
      fun h => if_neg (Bool.eq_false_iff.mp h)⟩
    obtain ⟨key, hkey⟩ := ofText_marked hmarked
    cases hkey.symm.trans h
  | context key => exact ⟨fun _ => rfl, fun _ => ofText_context key⟩

end Target

namespace Disk

variable {d e : Disk} {key : ContextKey} {bindings : BindingSet}

/-- Nothing is stored but whole records as they are written, each under its own key. -/
def Exact (d : Disk) : Prop :=
  ∀ key raw, d.contexts.get? (place key) = some raw → ∃ bindings,
    (Record.mk Record.currentVersion key bindings).fits = true ∧
      raw = (Record.mk Record.currentVersion key bindings).encode

theorem exact_empty : Exact {} := nofun

theorem Exact.congr (h : d.Exact) (he : e.contexts = d.contexts) : e.Exact :=
  fun key raw hraw => h key raw (he ▸ hraw)

theorem Exact.save (h : d.Exact) (hs : d.save key bindings = .ok e) : e.Exact := by
  intro other raw hraw
  rw [get?_save hs] at hraw
  split at hraw
  · rename_i hplace
    cases place_injective hplace
    cases hraw
    refine ⟨bindings, ?_, rfl⟩
    unfold Disk.save at hs
    dsimp only at hs
    split at hs
    · assumption
    · cases hs
  · exact h other raw hraw

theorem Exact.remove (h : d.Exact) (key : ContextKey) : (d.remove key).Exact := by
  intro other raw hraw
  rw [get?_remove] at hraw
  split at hraw
  · cases hraw
  · exact h other raw hraw

/-- A record that is written again as it was read has the bytes that it had. -/
theorem Exact.put_loaded (h : d.Exact) (hload : d.load key = .ok (some bindings)) :
    ∃ e, d.put key bindings = .ok e ∧ e.marks = d.marks ∧
      ∀ place, e.contexts.get? place = d.contexts.get? place := by
  obtain ⟨e, hput⟩ := put_of_fits (fits_of_load hload) d
  refine ⟨e, hput, marks_save (put_ok hput), fun place => ?_⟩
  rw [get?_save (put_ok hput)]
  split
  · rename_i hplace
    obtain ⟨raw, hraw, hread⟩ := load_some_iff.mp hload
    obtain ⟨stored, hfits, rfl⟩ := h key raw hraw
    have hversion : Record.currentVersion < Bytes.capacity 4 := by decide
    have hsame := Record.Leads.unique ⟨hfits, [], (List.append_nil _).symm⟩
      (readRecord_ok_iff.mp hread).1 hversion hversion
    rw [hplace, hraw, hsame]
  · rfl

end Disk

namespace BindingSet

variable {s : BindingSet} {b old : Binding}

theorem get?_some {name : Component} (h : s.get? name = some old) :
    ∃ position, s.position? name = some position ∧ s.entries[position]? = some old := by
  unfold get? at h
  split at h
  · cases h
  · rename_i position hposition
    exact ⟨position, hposition, h⟩

/-- Nothing changes when a name is bound anew to what it is bound to. -/
theorem replace_same (h : s.get? b.name = some b) : s.replace b = .ok (some b, s) := by
  obtain ⟨position, hposition, hentry⟩ := get?_some h
  obtain ⟨hlt, hget⟩ := List.getElem?_eq_some_iff.mp hentry
  have hplace : s.place position b = s := by
    unfold place
    rw [← hget, List.set_getElem_self hlt]
  rw [replace_found hposition hentry, if_pos rfl, hplace]

theorem replace_mistyped (h : s.get? b.name = some old) (htype : old.type ≠ b.type) :
    s.replace b = .error (mismatch b) := by
  obtain ⟨position, hposition, hentry⟩ := get?_some h
  rw [replace_found hposition hentry, if_neg htype]

end BindingSet

namespace Disk

variable {d e : Disk} {root key : ContextKey} {name : Name} {target : Target}

/-- Where a name is bound to what it means. -/
theorem resolve_stored (hd : d.Regular) (h : d.resolve root name = .ok target) :
    ∃ parent last bindings, d.walkFrom root name.first name.rest = .ok (parent, last) ∧
      d.load parent = .ok (some bindings) ∧
      bindings.get? last.val = some ⟨last.val, target⟩ := by
  obtain ⟨init, last, parent, hlabels, hleads, hbound⟩ := resolve_ok_iff.mp h
  obtain ⟨bindings, b, hload, hget, rfl⟩ := bound_some hbound
  obtain ⟨_, hname⟩ := (hd.regular hload).get?_iff.mp hget
  exact ⟨parent, last, bindings, walkFrom_ok_iff.mpr ⟨init, hlabels, hleads⟩, hload, hname ▸ hget⟩

/-- Whether a target can be bound: it is an object, or a context that has a record. -/
def Stands (d : Disk) (target : Target) : Prop :=
  ∀ key, target = .context key → d.contains key = true

theorem Stands.accepts (h : d.Stands target) (parent : ContextKey) :
    d.accepts parent target = .ok () := by
  cases target with
  | object reference => rfl
  | context key =>
    simp only [Disk.accepts, h key rfl, if_true]
    exact ite_self _

/-- A name can be bound anew to what it is bound to, and no byte is different then. -/
theorem Exact.bind_same (h : d.Exact) (hd : d.Regular) (hresolve : d.resolve root name = .ok target)
    (hstands : d.Stands target) : ∃ e, d.bind root name target .anew = .ok e ∧
      e.marks = d.marks ∧ ∀ place, e.contexts.get? place = d.contexts.get? place := by
  obtain ⟨parent, last, bindings, hwalk, hload, hget⟩ := resolve_stored hd hresolve
  obtain ⟨e, hput, hsame⟩ := h.put_loaded hload
  refine ⟨e, ?_, hsame⟩
  have hreplace := BindingSet.replace_same (b := ⟨last.val, target⟩) hget
  simp only [Disk.bind, hwalk, bindLast, look_stored hload, hstands.accepts,
    Context.Placement.change, hreplace, Bind.bind, Except.bind, Except.map]
  exact hput

/-- What is bound to an object cannot be bound to a context. -/
theorem bind_mistyped (hd : d.Regular) {reference : String}
    (hresolve : d.resolve root name = .ok (.object reference)) (key : ContextKey) :
    ∃ failure, d.bind root name (.context key) .anew = .error failure := by
  obtain ⟨parent, last, bindings, hwalk, hload, hget⟩ := resolve_stored hd hresolve
  have hreplace := BindingSet.replace_mistyped (b := ⟨last.val, .context key⟩) hget nofun
  simp only [Disk.bind, hwalk, bindLast, look_stored hload, Context.Placement.change, hreplace,
    Bind.bind, Except.bind, Except.map]
  cases d.accepts parent (.context key) <;> exact ⟨_, rfl⟩

/-- What has no record cannot be bound, even where it is bound already. -/
theorem bind_vanished (hd : d.Regular) (hresolve : d.resolve root name = .ok (.context key))
    (hgone : d.contains key = false) :
    d.bind root name (.context key) .anew = .error (.noContext key) := by
  obtain ⟨parent, last, bindings, hwalk, hload, _⟩ := resolve_stored hd hresolve
  have hother : key ≠ parent := by
    rintro rfl
    rw [contains_of_load hload] at hgone
    cases hgone
  simp [Disk.bind, hwalk, bindLast, look_stored hload, accepts, hother, hgone, Bind.bind,
    Except.bind]

/-- A target that is not read back from its text, or has no record, cannot be bound from it. -/
theorem bind_text_error (hd : d.Regular) (hresolve : d.resolve root name = .ok target)
    (hbad : ¬ (target.isMarked = false ∧ d.Stands target)) :
    ∃ failure, d.bind root name (.ofText target.text) .anew = .error failure := by
  cases target with
  | object reference =>
    have hmarked : (Target.object reference).isMarked = true :=
      Bool.eq_true_of_not_eq_false fun hread => hbad ⟨hread, nofun⟩
    obtain ⟨key, hkey⟩ := Target.ofText_marked hmarked
    have htext : (Target.object reference).text = reference := rfl
    rw [htext, hkey]
    exact bind_mistyped hd hresolve key
  | context key =>
    have hgone : d.contains key = false := Bool.eq_false_iff.mpr fun hstored =>
      hbad ⟨rfl, by rintro _ ⟨⟩; exact hstored⟩
    rw [Target.ofText_context]
    exact ⟨_, bind_vanished hd hresolve hgone⟩

end Disk

/-- No step writes anything but whole records. -/
theorem Job.run_exact {α : Type} {job : Job α} {a : α} (h : s.store.disk.Exact)
    (hr : job.run s = some (a, t)) : t.store.disk.Exact := by
  have hstep : ∀ a : Action, True → ∀ s r t, a.perform? s = some (r, t) →
      s.store.disk.Exact → t.store.disk.Exact := by
    intro action _ s r t hp hs
    cases Action.performs_writes hp with
    | nothing same => exact hs.congr same
    | saved saved => exact hs.save saved
    | removed removed => exact removed ▸ hs.remove _
  exact Job.All.keeps (I := fun s t => s.store.disk.Exact → t.store.disk.Exact) (fun _ => id)
    (fun _ _ _ hst htu => htu ∘ hst) hstep job.all_steps hr h

theorem Worked.exact [Drawing] {disk : Disk} {running : Option Service} (h : Worked disk running s)
    (hd : disk.Exact) : s.store.disk.Exact :=
  h.keeps (fun _ _ => hd) (fun _ _ => id) Job.run_exact (fun _ _ => id)

namespace Command

variable {text reference : String} {name : Name}

theorem run_resolve [Drawing] (service : Service) (hname : Name.ofText text = .ok name) :
    (resolve text).run service = service.rootContext.resolve name >>= fun target =>
      pure target.text := by
  simp only [run, Context.resolveText, hname]
  rfl

/-- To bind a name anew is the same for objects and contexts but for the name of the operation. -/
theorem run_rebind [Drawing] (service : Service) (hname : Name.ofText text = .ok name)
    (reference : String) :
    ∃ operation : Operation, operation.isMutating = true ∧ (rebind text reference).run service =
      service.rootContext.bindTarget name (.ofText reference) .anew operation >>= fun _ =>
        pure s!"Rebound {name.text}" := by
  simp only [run, readName, hname]
  cases Target.ofText reference with
  | object reference => exact ⟨.rebind, rfl, rfl⟩
  | context key => exact ⟨.rebindContext, rfl, rfl⟩

/-- What it comes to that a name is bound anew to what a text says. -/
theorem rebind_steady [Drawing] {d : Disk} (hs : s.Steady d) (hname : Name.ofText text = .ok name)
    (reference : String) : ∃ result t, (service.execute (.rebind text reference)).serve s =
      some (result, t) ∧ (d.bind service.root name (.ofText reference) .anew).map
        (s!"Rebound {name.text}", ·) = result.map (·, t.store.disk) ∧
      (result.isOk = false → t.store.disk = d) := by
  obtain ⟨operation, hmutating, hrun⟩ := run_rebind service hname reference
  have hperforms := (service.rootContext.performs_bindTarget name (.ofText reference) .anew
    hmutating).map fun _ => s!"Rebound {name.text}"
  obtain ⟨result, t, hserve, _, htold, hsame⟩ := hperforms.steady hs
  rw [← hrun] at hserve
  obtain ⟨event, hexecute⟩ := service.execute_run hserve
  refine ⟨result, _, hexecute, Eq.trans ?_ htold, hsame⟩
  change _ = Except.map _ (Except.map _ (d.bind service.root name (.ofText reference) .anew))
  cases d.bind service.root name (.ofText reference) .anew <;> rfl

/-- What a name means is printed. -/
theorem resolve_steady [Drawing] {d : Disk} {target : Target} (hs : s.Steady d)
    (hname : Name.ofText text = .ok name) (hresolve : d.resolve service.root name = .ok target) :
    ∃ t, (service.execute (.resolve text)).serve s = some (.ok target.text, t) ∧ t.Steady d := by
  obtain ⟨t, hserve, ht⟩ := ((service.rootContext.views_resolve name).map Target.text).shown hs
  have hshown : (d.resolve service.rootContext.key name).map Target.text = .ok target.text :=
    congrArg (Except.map _) hresolve
  rw [← run_resolve service hname, hshown] at hserve
  obtain ⟨event, hexecute⟩ := service.execute_run hserve
  exact ⟨_, hexecute, ht.note event⟩

end Command

namespace Service

variable {text : String} {name : Name} {target : Target}

/-- What is printed for a name can be bound to it again, and not a byte changes. The exception are
objects whose reference reads like a context's, which is refused. -/
theorem rebind_resolved [Drawing] (h : Worked {} (some service) s) (hw : s.store.Willing)
    (hname : Name.ofText text = .ok name)
    (hresolve : s.store.disk.resolve service.root name = .ok target) :
    (Target.ofText target.text = target ↔ target.isMarked = false) ∧
    ∃ t result u, (service.execute (.resolve text)).serve s = some (.ok target.text, t) ∧
      (service.execute (.rebind text target.text)).serve t = some (result, u) ∧
      u.store.disk.marks = s.store.disk.marks ∧
      (∀ place, u.store.disk.contexts.get? place = s.store.disk.contexts.get? place) ∧
      (target.isMarked = false ∧ s.store.disk.Stands target →
        result = .ok s!"Rebound {name.text}") ∧
      (¬ (target.isMarked = false ∧ s.store.disk.Stands target) → result.isOk = false) := by
  refine ⟨Target.ofText_text_iff, ?_⟩
  have hfair := (h.sound Disk.sound_empty).fair
  have hsteady : s.Steady s.store.disk := ⟨rfl, h.rest.ready, hfair, hw⟩
  obtain ⟨t, hprinted, ht⟩ := Command.resolve_steady hsteady hname hresolve
  obtain ⟨result, u, hserve, htold, hsame⟩ := Command.rebind_steady ht hname target.text
  refine ⟨t, result, u, hprinted, hserve, ?_⟩
  by_cases hgood : target.isMarked = false ∧ s.store.disk.Stands target
  · obtain ⟨hread, hstands⟩ := hgood
    obtain ⟨e, hbind, hmarks, hbytes⟩ :=
      (h.exact Disk.exact_empty).bind_same hfair.disk hresolve hstands
    rw [Target.ofText_text_iff.mpr hread, hbind] at htold
    cases result with
    | error failure => cases htold
    | ok said =>
      obtain ⟨rfl, rfl⟩ := Prod.mk.inj (Except.ok.inj htold)
      exact ⟨hmarks, hbytes, fun _ => rfl, fun hbad => absurd ⟨hread, hstands⟩ hbad⟩
  · obtain ⟨failure, hbind⟩ := Disk.bind_text_error hfair.disk hresolve hgood
    rw [hbind] at htold
    cases result with
    | error other =>
      have hdisk := hsame rfl
      exact ⟨by rw [hdisk], fun place => by rw [hdisk], fun hbetter => absurd hbetter hgood,
        fun _ => rfl⟩
    | ok said => cases htold

/-- A context leads back to the root. -/
def looped : List Task :=
  [.call ⟨"NC0"⟩ (.bindNewContext (.single ⟨.ofId "d", Eq.refl true⟩)),
    .call ⟨"NC1"⟩ (.bindContext (.single ⟨.ofId "up", Eq.refl true⟩) ⟨"NC0"⟩)]

theorem rebind_resolved_looped : ∃ service s history t u,
    firstRun looped = some (service, s, history) ∧
      (service.execute (.resolve "d/up")).serve s = some (.ok "context:NC0", t) ∧
      (service.execute (.rebind "d/up" "context:NC0")).serve t = some (.ok "Rebound d/up", u) ∧
      ∀ place, u.store.disk.contexts.get? place = s.store.disk.contexts.get? place := by
  have hname : Name.ofText "d/up" =
      .ok ⟨⟨.ofId "d", Eq.refl true⟩, [⟨.ofId "up", Eq.refl true⟩]⟩ := by
    decide +kernel
  have hrun : (firstRun looped).any (fun p =>
      decide (p.2.1.store.disk.resolve p.1.root
        ⟨⟨.ofId "d", Eq.refl true⟩, [⟨.ofId "up", Eq.refl true⟩]⟩ = .ok (.context ⟨"NC0"⟩)) &&
      p.2.1.store.disk.contains ⟨"NC0"⟩) = true := by
    decide +kernel
  obtain ⟨⟨service, s, history⟩, hrun, hseen⟩ := (Option.any_eq_true _ _).mp hrun
  obtain ⟨hresolve, hstored⟩ := Bool.and_eq_true_iff.mp hseen
  have hstands : s.store.disk.Stands (.context ⟨"NC0"⟩) := by
    rintro _ ⟨⟩
    exact hstored
  obtain ⟨_, t, result, u, hprinted, hserve, _, hbytes, hdone, _⟩ := rebind_resolved
    (Worked.firstRun hrun) (Reached.firstRun hrun).settled.faults hname
    (of_decide_eq_true hresolve)
  have hprinted : (service.execute (.resolve "d/up")).serve s = some (.ok "context:NC0", t) :=
    hprinted
  have hserve : (service.execute (.rebind "d/up" "context:NC0")).serve t = some (result, u) :=
    hserve
  have hsaid : result = .ok "Rebound d/up" := (hdone ⟨rfl, hstands⟩).trans (by decide +kernel)
  exact ⟨service, s, history, t, u, hrun, hprinted, hsaid ▸ hserve, hbytes⟩

/-- The reference of an object reads like the root. What is printed for it is taken for a context,
which does not go where an object is. -/
theorem rebind_resolved_marked : ¬ ∀ (service : Service) (s : Server) (text : String) (name : Name)
    (target : Target), Worked {} (some service) s → s.store.Willing →
    Name.ofText text = .ok name → s.store.disk.resolve service.root name = .ok target →
    s.store.disk.Stands target → ∃ t u said,
      (service.execute (.resolve text)).serve s = some (.ok target.text, t) ∧
      (service.execute (.rebind text target.text)).serve t = some (.ok said, u) ∧
      ∀ place, u.store.disk.contexts.get? place = s.store.disk.contexts.get? place := by
  intro hclaim
  have hname : Name.ofText "a" = .ok (.single ⟨.ofId "a", Eq.refl true⟩) := by decide +kernel
  have hrun : (firstRun
      [.call ⟨"NC0"⟩ (.bind (.single ⟨.ofId "a", Eq.refl true⟩) "context:NC0")]).any (fun p =>
        decide (p.2.1.store.disk.resolve p.1.root (.single ⟨.ofId "a", Eq.refl true⟩) =
          .ok (.object "context:NC0")) &&
        ((p.1.execute (.resolve "a")).serve p.2.1).any fun q =>
          ((p.1.execute (.rebind "a" "context:NC0")).serve q.2).any fun r => !r.1.isOk) = true := by
    decide +kernel
  obtain ⟨⟨service, s, history⟩, hrun, hseen⟩ := (Option.any_eq_true _ _).mp hrun
  obtain ⟨hresolve, hseen⟩ := Bool.and_eq_true_iff.mp hseen
  obtain ⟨⟨printed, t⟩, hprinted, hseen⟩ := (Option.any_eq_true _ _).mp hseen
  obtain ⟨⟨result, u⟩, hserve, hfailed⟩ := (Option.any_eq_true _ _).mp hseen
  obtain ⟨t', u', said, hprinted', hserve', _⟩ := hclaim service s "a" _ _ (Worked.firstRun hrun)
    (Reached.firstRun hrun).settled.faults hname (of_decide_eq_true hresolve) nofun
  cases Option.some.inj (hprinted.symm.trans hprinted')
  cases Option.some.inj (hserve.symm.trans hserve')
  cases hfailed

end Service

end Naming
