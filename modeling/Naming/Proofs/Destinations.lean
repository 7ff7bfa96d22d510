import Naming.Proofs.PagesAccounted

namespace Naming

namespace Disk

/-- What it comes to when the context of a name is asked for. The name leads to a context, or
somewhere what is left of it leads no further. What is left is then reported, except where only the
last label is left and is bound to an object: that is reported under the whole name. -/
inductive Arrives (d : Disk) (key : ContextKey) (name : Name) : Except Failure ContextKey → Prop
  | context {target : ContextKey} (leads : d.Leads key name.labels target) :
      Arrives d key name (.ok target)
  | stopped {before : List Label} {left : Name} {mid : ContextKey} {failure : Failure}
      (labels : name.labels = before ++ left.labels) (leads : d.Leads key before mid)
      (stops : d.Stops mid left failure) (no_object : left.rest = [] →
        ∀ reference, d.bound mid left.first ≠ some (.object reference)) :
      Arrives d key name (.error failure)
  | object {before : List Label} {last : Label} {mid : ContextKey} {reference : String}
      (labels : name.labels = before ++ [last]) (leads : d.Leads key before mid)
      (taken : d.bound mid last = some (.object reference)) :
      Arrives d key name (.error (.notAContext name))

/-- The context that a name is bound to. An object is reported under the whole name. -/
def destination (d : Disk) (key : ContextKey) (name : Name) : Except Failure ContextKey :=
  (d.resolve key name).bind fun target =>
    match target with
    | .context next => .ok next
    | .object _ => .error (.notAContext name)

variable {d : Disk} {key c mid parent : ContextKey} {last : Label} {before init : List Label}
  {name p q left : Name} {failure : Failure}

/-- What a name is bound to is what the rest of it is bound to where its first labels lead. -/
theorem Leads.resolve (h : d.Leads key before c) (hname : name.labels = before ++ q.labels) :
    d.resolve key name = d.resolve c q := by
  unfold Disk.resolve
  rw [h.walkFrom hname]

theorem resolve_single (d : Disk) (key : ContextKey) (last : Label) :
    d.resolve key (.single last) = d.look key (Context.targetIn last) := rfl

/-- Where a name leads no further it is bound to nothing, unless an object is all that is left. -/
theorem Stops.resolve (h : d.Stops mid left failure) (hd : d.Sound)
    (hleads : d.Leads key before mid) (hname : name.labels = before ++ left.labels)
    (no_object : left.rest = [] →
      ∀ reference, d.bound mid left.first ≠ some (.object reference)) :
    d.resolve key name = .error failure := by
  by_cases hrest : left.rest = []
  · have hleft : left = .single left.first := congrArg (Name.mk left.first) hrest
    rw [hleads.resolve hname, hleft, resolve_single]
    cases h with
    | missing gone => exact look_unknown gone _
    | unbound stored free => rw [look_target_unbound hd stored free, ← hleft]
    | object taken => exact absurd taken (no_object hrest _)
  · unfold Disk.resolve
    rw [h.walkFrom hd hleads hname hrest]
    rfl

/-- A label that is not found where it is looked up leads no further from there. -/
theorem stops_of_look (hd : d.Sound) (h : d.look mid (Context.targetIn last) = .error failure) :
    d.Stops mid (.single last) failure ∧ d.bound mid last = none := by
  cases hstored : d.contains mid with
  | false =>
    rw [look_unknown hstored] at h
    cases h
    exact ⟨.missing hstored, bound_missing (load_of_not_contains hstored) last⟩
  | true =>
    obtain ⟨bindings, hload⟩ := hd.load_contained hstored
    rw [look_stored hload, Context.targetIn] at h
    split at h
    · rename_i hget
      have hfree : d.bound mid last = none := by rw [bound_of_load hload, hget]; rfl
      cases h
      exact ⟨.unbound hstored hfree, hfree⟩
    · cases h

/-- Where all labels but the last lead somewhere, it is the last that decides. -/
theorem arrives_last (hd : d.Sound) (hname : name.labels = init ++ [last])
    (hleads : d.Leads key init parent) : d.Arrives key name (d.destination key name) := by
  have hresolve : d.resolve key name = d.look parent (Context.targetIn last) :=
    hleads.resolve (q := .single last) hname
  unfold destination
  rw [hresolve]
  cases hlook : d.look parent (Context.targetIn last) with
  | error failure =>
    obtain ⟨hstops, hfree⟩ := stops_of_look hd hlook
    apply Arrives.stopped hname hleads hstops
    intro _ reference htaken
    cases hfree.symm.trans htaken
  | ok target =>
    have hbound := look_target_ok_iff.mp hlook
    cases target with
    | context next =>
      apply Arrives.context
      rw [hname]
      exact hleads.concat hbound
    | object reference => exact .object hname hleads hbound

/-- Whatever the disk holds, one of the three ways is how it ends. -/
theorem arrives_destination (hd : d.Sound) (key : ContextKey) (name : Name) :
    d.Arrives key name (d.destination key name) := by
  rcases List.eq_nil_or_concat name.labels with hnil | ⟨init, last, hname⟩
  · cases hnil
  rw [List.concat_eq_append] at hname
  rcases d.leads_or_stops key init (.single last) with
    ⟨parent, hleads⟩ | ⟨before, label, after, mid, failure, rfl, hleads, hstops⟩
  · exact arrives_last hd hname hleads
  · have hlabels : name.labels = before ++ (⟨label, after ++ [last]⟩ : Name).labels := by
      rw [hname, List.append_assoc]
      rfl
    have hrest : after ++ [last] ≠ [] := List.append_ne_nil_of_right_ne_nil _ nofun
    unfold destination
    rw [hstops.resolve hd hleads hlabels fun hnone => absurd hnone hrest]
    apply Arrives.stopped hlabels hleads hstops
    intro hnone
    exact absurd hnone hrest

/-- It ends in one way only. -/
theorem arrives_iff (hd : d.Sound) {outcome : Except Failure ContextKey} :
    d.Arrives key name outcome ↔ outcome = d.destination key name := by
  constructor
  · intro h
    unfold destination
    cases h with
    | context leads => rw [resolve_context_iff.mpr leads]; rfl
    | stopped labels leads stops no_object => rw [stops.resolve hd leads labels no_object]; rfl
    | object labels leads taken =>
      rw [resolve_ok_iff.mpr ⟨_, _, _, labels, leads, taken⟩]
      rfl
  · intro h
    exact h ▸ arrives_destination hd key name

/-- The context of a name is sought from where the first labels of the name lead. Only an object is
reported in another way, as the whole name is reported with it. -/
theorem Leads.destination (h : d.Leads key p.labels c) (q : Name) :
    d.destination key (p ++ q) = d.destination c q ∨ ∃ reference,
      d.resolve c q = .ok (.object reference) ∧
        d.destination key (p ++ q) = .error (.notAContext (p ++ q)) ∧
        d.destination c q = .error (.notAContext q) := by
  have hlabels : (p ++ q).labels = p.labels ++ q.labels := rfl
  unfold Disk.destination
  rw [h.resolve hlabels]
  cases d.resolve c q with
  | error failure => exact .inl rfl
  | ok target =>
    cases target with
    | context next => exact .inl rfl
    | object reference => exact .inr ⟨reference, rfl, rfl, rfl⟩

end Disk

/-- What a request is told that changes no record. Only a load that is refused keeps it from being
told so. -/
def Server.Tells {α : Type} (s : Server) (r : Request α) (told : Except Failure α) : Prop :=
  ∃ result t, r.serve s = some (result, t) ∧ t.store.disk = s.store.disk ∧
    (result = told ∨ result.isOk = false ∧ s.store.Refused t.store .load)

variable {service : Service} {s u : Server} {key c : ContextKey}

theorem Request.Views.tells {α : Type} {r : Request α} {view : Disk → Except Failure α}
    (h : r.Views [.load] view) (hs : s.AtRest) (hfair : s.Fair) :
    s.Tells r (view s.store.disk) := by
  obtain ⟨result, t, hserve, _⟩ := h.orderly.serves hs.idle fun _ => hs.opened
  refine ⟨result, t, hserve, ?_, h.shows hs.ready hfair hserve⟩
  cases result with
  | error failure => exact (h.fairly hs.ready hfair hserve).same
  | ok a => exact (h.seen hs.ready hfair hserve).2

theorem Context.bind_contextOf (c : Context) (d : Disk) (name : Name) :
    (d.resolve c.key name).bind (c.contextOf name) =
      (d.destination c.key name).map fun key => { c with key := key } := by
  unfold Disk.destination
  cases d.resolve c.key name with
  | error failure => rfl
  | ok target => cases target <;> rfl

theorem Context.views_destination (c : Context) (name : Name) :
    (c.resolveContext name).Views [.load] fun d =>
      (d.destination c.key name).map fun key => { c with key := key } := by
  apply Request.Performs.congr (c.views_resolveContext name)
  intro d
  exact congrArg _ (c.bind_contextOf d name)

namespace Service

/-- The context of a name is sought from where its first labels lead. It makes a difference only
for an object at the end, which is reported under all of the name that was asked for. -/
theorem resolveContext_delegates [Drawing] {p : Name} (h : Worked {} (some service) s)
    (hp : ((service.context key).resolve p).serve s = some (.ok (.context c), u)) (q : Name) :
    ∃ outcome outcome' : Except Failure ContextKey,
      s.Tells ((service.context key).resolveContext (p ++ q)) (outcome.map service.context) ∧
      s.Tells ((service.context c).resolveContext q) (outcome'.map service.context) ∧
      (∀ e, s.store.disk.Arrives key (p ++ q) e ↔ e = outcome) ∧
      (∀ e, s.store.disk.Arrives c q e ↔ e = outcome') ∧
      (outcome = outcome' ∨ ∃ before last mid reference,
        q.labels = before ++ [last] ∧ s.store.disk.Leads c before mid ∧
          s.store.disk.bound mid last = some (.object reference) ∧
          outcome = .error (.notAContext (p ++ q)) ∧ outcome' = .error (.notAContext q)) := by
  have hrest := h.rest
  have hsound := h.sound Disk.sound_empty
  have hresolve := (((service.context key).views_resolve p).seen hrest.ready hsound.fair hp).1
  have hleads : s.store.disk.Leads key p.labels c := Disk.resolve_context_iff.mp hresolve
  refine ⟨_, _, ((service.context key).views_destination (p ++ q)).tells hrest hsound.fair,
    ((service.context c).views_destination q).tells hrest hsound.fair,
    fun _ => Disk.arrives_iff hsound.disk, fun _ => Disk.arrives_iff hsound.disk, ?_⟩
  rcases hleads.destination q with hsame | ⟨reference, hobject, hwhole, hpart⟩
  · exact .inl hsame
  · obtain ⟨before, last, mid, hlabels, hbefore, hbound⟩ := Disk.resolve_ok_iff.mp hobject
    exact .inr ⟨before, last, mid, reference, hlabels, hbefore, hbound, hwhole, hpart⟩

/-- A context in which it is bound itself, and an object. -/
def entwined : List Task :=
  [.call ⟨"NC0"⟩ (.bindNewContext (.single ⟨.ofId "a", Eq.refl true⟩)),
    .call ⟨"NC1"⟩ (.bindContext (.single ⟨.ofId "b", Eq.refl true⟩) ⟨"NC1"⟩),
    .call ⟨"NC1"⟩ (.bind (.single ⟨.ofId "x", Eq.refl true⟩) "IOR:x")]

theorem resolveContext_delegates_entwined : ∃ service s history u, ∃ p q : Name,
    p.text = "a/b" ∧ q.text = "b/x" ∧ firstRun entwined = some (service, s, history) ∧
      ((service.context ⟨"NC0"⟩).resolve p).serve s = some (.ok (.context ⟨"NC1"⟩), u) ∧
      ∃ outcome outcome' : Except Failure ContextKey,
        s.Tells ((service.context ⟨"NC0"⟩).resolveContext (p ++ q))
          (outcome.map service.context) ∧
        s.Tells ((service.context ⟨"NC1"⟩).resolveContext q) (outcome'.map service.context) ∧
        (∀ e, s.store.disk.Arrives ⟨"NC0"⟩ (p ++ q) e ↔ e = outcome) ∧
        (∀ e, s.store.disk.Arrives ⟨"NC1"⟩ q e ↔ e = outcome') ∧
        (outcome = outcome' ∨ ∃ before last mid reference,
          q.labels = before ++ [last] ∧ s.store.disk.Leads ⟨"NC1"⟩ before mid ∧
            s.store.disk.bound mid last = some (.object reference) ∧
            outcome = .error (.notAContext (p ++ q)) ∧
            outcome' = .error (.notAContext q)) := by
  have hrun : (firstRun entwined).any (fun p => (((p.1.context ⟨"NC0"⟩).resolve
      ⟨⟨.ofId "a", Eq.refl true⟩, [⟨.ofId "b", Eq.refl true⟩]⟩).serve p.2.1).any
        fun q => q.1.toOption == some (Target.context ⟨"NC1"⟩)) = true := by
    decide +kernel
  obtain ⟨⟨service, s, history⟩, hrun, hseen⟩ := (Option.any_eq_true _ _).mp hrun
  obtain ⟨⟨result, u⟩, hserve, hresult⟩ := (Option.any_eq_true _ _).mp hseen
  cases result with
  | error failure => cases hresult
  | ok target =>
    have htarget : target = .context ⟨"NC1"⟩ := Option.some.inj (beq_iff_eq.mp hresult)
    subst htarget
    obtain ⟨outcome, outcome', hwhole, hpart, harrives, harrives', hsame⟩ :=
      resolveContext_delegates (Worked.firstRun hrun) hserve
        ⟨⟨.ofId "b", Eq.refl true⟩, [⟨.ofId "x", Eq.refl true⟩]⟩
    refine ⟨service, s, history, u, _, _, ?_, ?_, hrun, hserve, outcome, outcome', hwhole, hpart,
      harrives, harrives', hsame⟩
    · decide +kernel
    · decide +kernel

/-- An object is reported under the name that was asked for, which tells apart whether it was asked
for in its context or from further up. -/
theorem resolveContext_reports_whole : ¬ ∀ (service : Service) (s u : Server)
    (key c : ContextKey) (p q : Name), Worked {} (some service) s →
    ((service.context key).resolve p).serve s = some (.ok (.context c), u) →
    (((service.context key).resolveContext (p ++ q)).serve s).map (·.1) =
      (((service.context c).resolveContext q).serve s).map (·.1) := by
  intro hclaim
  have hrun : (firstRun entwined).any (fun p => (((p.1.context ⟨"NC0"⟩).resolve
      (.single ⟨.ofId "a", Eq.refl true⟩)).serve p.2.1).any
        fun q => q.1.toOption == some (Target.context ⟨"NC1"⟩) &&
          decide ((((p.1.context ⟨"NC0"⟩).resolveContext
              ((.single ⟨.ofId "a", Eq.refl true⟩ : Name) ++
                Name.single ⟨.ofId "x", Eq.refl true⟩)).serve p.2.1).map (·.1) ≠
            (((p.1.context ⟨"NC1"⟩).resolveContext
              (.single ⟨.ofId "x", Eq.refl true⟩)).serve p.2.1).map (·.1))) = true := by
    decide +kernel
  obtain ⟨⟨service, s, history⟩, hrun, hseen⟩ := (Option.any_eq_true _ _).mp hrun
  obtain ⟨⟨result, u⟩, hserve, hseen⟩ := (Option.any_eq_true _ _).mp hseen
  obtain ⟨hresult, hdiffer⟩ := Bool.and_eq_true_iff.mp hseen
  cases result with
  | error failure => cases hresult
  | ok target =>
    have htarget : target = .context ⟨"NC1"⟩ := Option.some.inj (beq_iff_eq.mp hresult)
    subst htarget
    exact of_decide_eq_true hdiffer (hclaim service s u _ _ _ _ (Worked.firstRun hrun) hserve)

end Service

end Naming
