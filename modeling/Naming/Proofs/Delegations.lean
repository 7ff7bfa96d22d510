import Naming.Proofs.UnknownContexts
import Naming.Proofs.UpdatesLossless

namespace Naming

namespace Disk

/-- Labels lead from one context to another when each of them is bound to the context in which the
next is looked up. -/
inductive Leads (d : Disk) : ContextKey → List Label → ContextKey → Prop
  | here (key : ContextKey) : Leads d key [] key
  | through {key next target : ContextKey} {label : Label} {labels : List Label}
      (link : d.bound key label = some (.context next)) (others : Leads d next labels target) :
      Leads d key (label :: labels) target

/-- Why nothing further is found from a context on, when the first label of what is left of a name
is to lead on from there. -/
inductive Stops (d : Disk) (key : ContextKey) (left : Name) : Failure → Prop
  | missing (gone : d.contains key = false) : Stops d key left (.noContext key)
  | unbound (stored : d.contains key = true) (free : d.bound key left.first = none) :
      Stops d key left (.notFound left)
  | object {reference : String} (taken : d.bound key left.first = some (.object reference)) :
      Stops d key left (.notAContext left)

variable {d : Disk} {key next mid parent target : ContextKey} {first last label : Label}
  {labels rest init : List Label} {name p q left : Name} {failure : Failure}

theorem bound_some {target : Target} (h : d.bound key label = some target) :
    ∃ bindings b, d.load key = .ok (some bindings) ∧ bindings.get? label.val = some b ∧
      b.target = target := by
  unfold bound at h
  split at h
  · rename_i bindings hload
    obtain ⟨b, hget, htarget⟩ := Option.map_eq_some_iff.mp h
    exact ⟨bindings, b, hload, hget, htarget⟩
  · cases h

theorem look_stored {α : Type} {bindings : BindingSet} (h : d.load key = .ok (some bindings))
    (view : BindingSet → Except Failure α) : d.look key view = view bindings := by
  simp only [look, found, h, Except.bind]

/-- The next context of a walk is the one that the label is bound to. -/
theorem look_child_ok_iff :
    d.look key (Context.childIn left) = .ok next ↔
      d.bound key left.first = some (.context next) := by
  constructor
  · intro h
    obtain ⟨bindings, hload, hview⟩ := look_ok h
    rw [bound_of_load hload]
    unfold Context.childIn at hview
    split at hview
    · cases hview
    · rename_i b hget
      rw [hget]
      split at hview
      · rename_i child htarget
        cases hview
        exact congrArg some htarget
      · cases hview
  · intro h
    obtain ⟨bindings, b, hload, hget, htarget⟩ := bound_some h
    rw [look_stored hload, Context.childIn, hget]
    simp only [htarget]

theorem look_target_ok_iff {target : Target} :
    d.look key (Context.targetIn label) = .ok target ↔ d.bound key label = some target := by
  constructor
  · intro h
    obtain ⟨bindings, hload, hview⟩ := look_ok h
    rw [bound_of_load hload]
    unfold Context.targetIn at hview
    split at hview
    · cases hview
    · rename_i b hget
      cases hview
      rw [hget]
      rfl
  · intro h
    obtain ⟨bindings, b, hload, hget, htarget⟩ := bound_some h
    rw [look_stored hload, Context.targetIn, hget]
    exact congrArg Except.ok htarget

/-- The failure of a walk tells where and why it stops. -/
theorem Stops.look_child (h : d.Stops key left failure) (hd : d.Sound) :
    d.look key (Context.childIn left) = .error failure := by
  cases h with
  | missing gone => exact look_unknown gone _
  | unbound stored free =>
    obtain ⟨bindings, hload⟩ := hd.load_contained stored
    rw [bound_of_load hload, Option.map_eq_none_iff] at free
    rw [look_stored hload, Context.childIn, free]
  | object taken =>
    obtain ⟨bindings, b, hload, hget, htarget⟩ := bound_some taken
    rw [look_stored hload, Context.childIn, hget]
    simp only [htarget]

/-- From every context a label leads on, or what starts with it stops there. -/
theorem link_or_stops (d : Disk) (key : ContextKey) (left : Name) :
    (∃ next, d.bound key left.first = some (.context next)) ∨
      ∃ failure, d.Stops key left failure := by
  cases hbound : d.bound key left.first with
  | none =>
    cases hstored : d.contains key with
    | false => exact .inr ⟨_, .missing hstored⟩
    | true => exact .inr ⟨_, .unbound hstored hbound⟩
  | some target =>
    cases target with
    | context next => exact .inl ⟨next, rfl⟩
    | object reference => exact .inr ⟨_, .object hbound⟩

namespace Leads

/-- A walk goes on from where the first labels of a name lead. -/
theorem walkFrom (h : d.Leads key labels mid) {name q : Name}
    (hname : name.labels = labels ++ q.labels) :
    d.walkFrom key name.first name.rest = d.walkFrom mid q.first q.rest := by
  induction h generalizing name with
  | here key =>
    have hsame : name.first = q.first ∧ name.rest = q.rest := List.cons.inj hname
    rw [hsame.1, hsame.2]
  | through link others ih =>
    rename_i key next target label labels
    obtain ⟨first, rest⟩ := name
    obtain ⟨rfl, hrest⟩ : first = label ∧ rest = labels ++ q.labels := List.cons.inj hname
    cases rest with
    | nil =>
      have hlabels : labels ++ q.labels ≠ [] := List.append_ne_nil_of_right_ne_nil _ nofun
      exact absurd hrest.symm hlabels
    | cons second rest =>
      have hlook : d.look key (Context.childIn ⟨first, second :: rest⟩) = .ok next :=
        look_child_ok_iff.mpr link
      simp only [Disk.walkFrom, hlook, Bind.bind, Except.bind]
      exact @ih ⟨second, rest⟩ hrest

theorem concat (h : d.Leads key labels mid) (hlink : d.bound mid label = some (.context next)) :
    d.Leads key (labels ++ [label]) next := by
  induction h with
  | here key => exact .through hlink (.here next)
  | through link others ih => exact .through link (ih hlink)

theorem split {before after : List Label} (h : d.Leads key (before ++ after) target) :
    ∃ mid, d.Leads key before mid ∧ d.Leads mid after target := by
  induction before generalizing key with
  | nil => exact ⟨key, .here key, h⟩
  | cons label before ih =>
    cases h with
    | through link others =>
      obtain ⟨mid, hbefore, hafter⟩ := ih others
      exact ⟨mid, .through link hbefore, hafter⟩

end Leads

/-- A walk leads to the context in which the last label is to be found. -/
theorem walkFrom_ok_iff : d.walkFrom key first rest = .ok (parent, last) ↔
    ∃ init, first :: rest = init ++ [last] ∧ d.Leads key init parent := by
  constructor
  · intro h
    induction rest generalizing key first with
    | nil =>
      cases h
      exact ⟨[], rfl, .here _⟩
    | cons second rest ih =>
      obtain ⟨next, hlook, hrest⟩ := bind_ok h
      obtain ⟨init, hlabels, hleads⟩ := ih hrest
      exact ⟨first :: init, congrArg _ hlabels, .through (look_child_ok_iff.mp hlook) hleads⟩
  · rintro ⟨init, hlabels, hleads⟩
    have hlast : (⟨first, rest⟩ : Name).labels = init ++ (Name.single last).labels := hlabels
    exact hleads.walkFrom hlast

/-- A name is bound to what its last label is bound to where the others lead. -/
theorem resolve_ok_iff {target : Target} : d.resolve key name = .ok target ↔
    ∃ init last parent, name.labels = init ++ [last] ∧ d.Leads key init parent ∧
      d.bound parent last = some target := by
  constructor
  · intro h
    obtain ⟨⟨parent, last⟩, hwalk, hlook⟩ := bind_ok h
    obtain ⟨init, hlabels, hleads⟩ := walkFrom_ok_iff.mp hwalk
    exact ⟨init, last, parent, hlabels, hleads, look_target_ok_iff.mp hlook⟩
  · rintro ⟨init, last, parent, hlabels, hleads, hbound⟩
    unfold resolve
    rw [walkFrom_ok_iff.mpr ⟨init, hlabels, hleads⟩]
    exact look_target_ok_iff.mpr hbound

/-- A name is bound to a context when its labels lead there. -/
theorem resolve_context_iff :
    d.resolve key name = .ok (.context target) ↔ d.Leads key name.labels target := by
  rw [resolve_ok_iff]
  constructor
  · rintro ⟨init, last, parent, hlabels, hleads, hbound⟩
    exact hlabels ▸ hleads.concat hbound
  · intro h
    rcases List.eq_nil_or_concat name.labels with hnil | ⟨init, last, hlabels⟩
    · cases hnil
    · rw [List.concat_eq_append] at hlabels
      rw [hlabels] at h
      obtain ⟨parent, hinit, hlast⟩ := h.split
      cases hlast with
      | through link others =>
        cases others
        exact ⟨init, last, parent, hlabels, hinit, link⟩

/-- Labels lead somewhere, or on the way the walk of a name that goes on after them stops. -/
theorem leads_or_stops (d : Disk) (key : ContextKey) (labels : List Label) (q : Name) :
    (∃ target, d.Leads key labels target) ∨ ∃ before label after mid failure,
      labels = before ++ label :: after ∧ d.Leads key before mid ∧
        d.Stops mid ⟨label, after ++ q.labels⟩ failure := by
  induction labels generalizing key with
  | nil => exact .inl ⟨key, .here key⟩
  | cons label labels ih =>
    rcases d.link_or_stops key ⟨label, labels ++ q.labels⟩ with ⟨next, hlink⟩ | ⟨failure, hstops⟩
    · rcases ih next with ⟨target, hleads⟩ | ⟨before, l, after, mid, failure, rfl, hleads, hstops⟩
      · exact .inl ⟨target, .through hlink hleads⟩
      · exact .inr ⟨label :: before, l, after, mid, failure, rfl, .through hlink hleads, hstops⟩
    · exact .inr ⟨[], label, labels, key, failure, rfl, .here key, hstops⟩

/-- A walk that is to go on where it stops fails. -/
theorem Stops.walkFrom (h : d.Stops mid left failure) (hd : d.Sound)
    (hleads : d.Leads key init mid) (hname : name.labels = init ++ left.labels)
    (hrest : left.rest ≠ []) : d.walkFrom key name.first name.rest = .error failure := by
  obtain ⟨label, rest⟩ := left
  rw [hleads.walkFrom hname]
  cases rest with
  | nil => exact absurd rfl hrest
  | cons second rest => simp only [Disk.walkFrom, h.look_child hd, Bind.bind, Except.bind]

end Disk

/-- What a call answers and leaves on the disk when no call of the store is refused. -/
def Call.outcome (c : Context) (call : Call) (d : Disk) : Except Failure Reply × Disk :=
  match call.told c d with
  | .ok (reply, e) => (.ok reply, e)
  | .error failure => (.error failure, call.spoils c d)

namespace Reached

variable {service : Service} {s : Server} {history : History}

/-- As long as no call of the store is refused, every call comes to its outcome. -/
theorem run_outcome (h : Reached (fun _ _ => false) (some service) s history) (key : ContextKey)
    (call : Call) : ∃ t,
      (call.run (service.context key)).serve s =
        some ((call.outcome (service.context key) s.store.disk).1, t) ∧
      t.store.disk = (call.outcome (service.context key) s.store.disk).2 ∧
      s.Marked t (call.outcome (service.context key) s.store.disk).1 call.handsOut
        (call.settles key) := by
  have hsettled := h.settled
  have hready := hsettled.rest.ready
  have hwilling : s.store.Willing := hsettled.faults
  obtain ⟨n, hkeyed, _⟩ := h.keyed
  obtain ⟨result, t, hserve, _⟩ :=
    (call.run_orderly (service.context key)).serves hready.idle fun _ => hready.opened
  have hmarked := call.run_marked hready hsettled.numbered hserve
  have hends := Call.run_ends hready hsettled.sound hkeyed (h.root_below hkeyed) hserve
  unfold Call.outcome
  cases result with
  | ok reply =>
    rw [hends.told_ok]
    exact ⟨t, hserve, rfl, hmarked⟩
  | error failure =>
    obtain ⟨htold, hspoils⟩ := hends.told_error hwilling
    rw [htold]
    exact ⟨t, hserve, hspoils, hmarked⟩

end Reached

/-- What can be done by name. -/
inductive Verb where
  | resolve
  | bind (reference : String)
  | bindContext (key : ContextKey)
  | rebind (reference : String)
  | rebindContext (key : ContextKey)
  | unbind
  | bindNewContext
deriving DecidableEq

namespace Verb

def call (verb : Verb) (name : Name) : Call :=
  match verb with
  | resolve => .resolve name
  | bind reference => .bind name reference
  | bindContext key => .bindContext name key
  | rebind reference => .rebind name reference
  | rebindContext key => .rebindContext name key
  | unbind => .unbind name
  | bindNewContext => .bindNewContext name

/-- The context that is bound when all goes well. -/
def settles : Verb → Option ContextKey
  | bindContext key => some key
  | rebindContext key => some key
  | _ => none

variable {c c' : Context} {name name' : Name} {d : Disk} {failure : Failure}

/-- Where two names are walked to the same end, the same comes of them. -/
theorem outcome_congr (h : d.walkFrom c.key name.first name.rest =
    d.walkFrom c'.key name'.first name'.rest) (verb : Verb) :
    (verb.call name).outcome c d = (verb.call name').outcome c' d := by
  have htold : (verb.call name).told c d = (verb.call name').told c' d := by
    cases verb <;>
      simp only [call, Call.told, Disk.resolve, Disk.bind, Disk.unbind, Disk.bindNew, h]
  have hspoils : (verb.call name).spoils c d = (verb.call name').spoils c' d := by
    cases verb <;> simp only [call, Call.spoils, Disk.spoiled, Disk.createUnder, h]
  unfold Call.outcome
  rw [htold, hspoils]

/-- A walk that fails is all there is to it. -/
theorem outcome_failed (h : d.walkFrom c.key name.first name.rest = .error failure)
    (verb : Verb) : (verb.call name).outcome c d = (.error failure, d) := by
  have htold : (verb.call name).told c d = .error failure := by
    cases verb <;>
      simp only [call, Call.told, Disk.resolve, Disk.bind, Disk.unbind, Disk.bindNew, h] <;> rfl
  have hspoils : (verb.call name).spoils c d = d := by
    cases verb with
    | bindNewContext =>
      simp only [call, Call.spoils, Disk.spoiled, Disk.createUnder, h]
      rfl
    | _ => rfl
  unfold Call.outcome
  rw [htold, hspoils]

/-- Nothing that is done by name leaves a new context unbound. -/
theorem handsOut_call (verb : Verb) (name : Name) :
    (verb.call name).handsOut = fun _ => none := by
  cases verb <;> rfl

theorem settles_call (verb : Verb) (name : Name) (key : ContextKey) :
    (verb.call name).settles key = verb.settles := by
  cases verb <;> rfl

end Verb

namespace Server.Marked

variable {α : Type} {s t t' : Server} {result : Except Failure α} {hands : α → Option ContextKey}
  {settled : Option ContextKey} {failure : Failure}

/-- The same change leaves the same contexts unbound. -/
theorem unbound_iff (h : s.Marked t result hands settled) (h' : s.Marked t' result hands settled)
    (key : ContextKey) : key ∈ t.memory.unbound ↔ key ∈ t'.memory.unbound := by
  cases result with
  | error failure => exact (Server.Marks.unbound h key).trans (Server.Marks.unbound h' key).symm
  | ok a => exact (Server.Marks.unbound h key).trans (Server.Marks.unbound h' key).symm

/-- What fails leaves the contexts unbound that were so before. -/
theorem unbound_failed (h : s.Marked t (.error failure) hands settled) (key : ContextKey) :
    key ∈ t.memory.unbound ↔ key ∈ s.memory.unbound := by
  have hunbound := Server.Marks.unbound h key
  simpa using hunbound

end Server.Marked

/-- As long as no call of the store is refused, what is done by name comes to its outcome. -/
theorem Reached.run_verb {service : Service} {s : Server} {history : History}
    (h : Reached (fun _ _ => false) (some service) s history) (key : ContextKey) (verb : Verb)
    (name : Name) {result : Except Failure Reply} {d : Disk}
    (houtcome : (verb.call name).outcome (service.context key) s.store.disk = (result, d)) :
    ∃ t, ((verb.call name).run (service.context key)).serve s = some (result, t) ∧
      t.store.disk = d ∧ s.Marked t result (fun _ => none) verb.settles := by
  obtain ⟨t, hserve, hdisk, hmarked⟩ := h.run_outcome key (verb.call name)
  rw [verb.handsOut_call, verb.settles_call] at hmarked
  rw [houtcome] at hserve hdisk hmarked
  exact ⟨t, hserve, hdisk, hmarked⟩

namespace Service

variable {service : Service} {s : Server} {history : History}

/-- What is done by a name that starts with the name of a context is done in this context by the
rest of the name. Where the labels lead to no context, nothing is done. -/
theorem compound_delegates (h : Reached (fun _ _ => false) (some service) s history)
    (key : ContextKey) (p q : Name) :
    ∃ outcome u, ((service.context key).resolve p).serve s = some (outcome, u) ∧
      (∀ c, outcome = .ok (.context c) ↔ s.store.disk.Leads key p.labels c) ∧
      (∀ c, outcome = .ok (.context c) → ∀ verb : Verb, ∃ result t t',
        ((verb.call (p ++ q)).run (service.context key)).serve s = some (result, t) ∧
          ((verb.call q).run (service.context c)).serve s = some (result, t') ∧
          t.store.disk = t'.store.disk ∧
          ∀ k, k ∈ t.memory.unbound ↔ k ∈ t'.memory.unbound) ∧
      ((∀ c, outcome ≠ .ok (.context c)) → ∃ before label after mid failure,
        p.labels = before ++ label :: after ∧ s.store.disk.Leads key before mid ∧
          s.store.disk.Stops mid ⟨label, after ++ q.labels⟩ failure ∧
          ∀ verb : Verb, ∃ t,
            ((verb.call (p ++ q)).run (service.context key)).serve s =
              some (.error failure, t) ∧
            t.store.disk = s.store.disk ∧ ∀ k, k ∈ t.memory.unbound ↔ k ∈ s.memory.unbound) := by
  have hsettled := h.settled
  have hwilling : s.store.Willing := hsettled.faults
  have hshows : s.Shows s.store.disk :=
    ⟨rfl, hsettled.rest.idle, hsettled.sound, hwilling.spares .load⟩
  obtain ⟨u, hresolve, _⟩ := (service.context key).resolve_shows p hshows
  have hlabels : (p ++ q).labels = p.labels ++ q.labels := rfl
  refine ⟨_, u, hresolve, fun c => Disk.resolve_context_iff, fun c hc verb => ?_, fun hnone => ?_⟩
  · have hleads := Disk.resolve_context_iff.mp hc
    have hsame : (verb.call (p ++ q)).outcome (service.context key) s.store.disk =
        (verb.call q).outcome (service.context c) s.store.disk :=
      verb.outcome_congr (hleads.walkFrom hlabels)
    obtain ⟨t', hserve', hdisk', hmarked'⟩ := h.run_verb c verb q rfl
    obtain ⟨t, hserve, hdisk, hmarked⟩ := h.run_verb key verb (p ++ q) hsame
    exact ⟨_, t, t', hserve, hserve', hdisk.trans hdisk'.symm, hmarked.unbound_iff hmarked'⟩
  · rcases s.store.disk.leads_or_stops key p.labels q with
      ⟨c, hleads⟩ | ⟨before, label, after, mid, failure, hp, hleads, hstops⟩
    · exact absurd (Disk.resolve_context_iff.mpr hleads) (hnone c)
    · refine ⟨before, label, after, mid, failure, hp, hleads, hstops, fun verb => ?_⟩
      have hname : (p ++ q).labels = before ++ label :: (after ++ q.labels) := by
        rw [hlabels, hp, List.append_assoc, List.cons_append]
      have hwalk := hstops.walkFrom hsettled.sound.disk hleads hname
        (List.append_ne_nil_of_right_ne_nil _ nofun)
      obtain ⟨t, hserve, hdisk, hmarked⟩ := h.run_verb key verb (p ++ q)
        (verb.outcome_failed (c := service.context key) hwalk)
      exact ⟨t, hserve, hdisk, hmarked.unbound_failed⟩

/-- A context is bound in itself, and the name of a binding in it leads through it twice. -/
theorem compound_delegates_cyclic : ∃ service s history,
    firstRun [.newContext, .call ⟨"NC0"⟩ (.bindContext (.single ⟨.ofId "a", rfl⟩) ⟨"NC1"⟩),
      .call ⟨"NC1"⟩ (.bindContext (.single ⟨.ofId "b", rfl⟩) ⟨"NC1"⟩)] =
        some (service, s, history) ∧
      ∀ verb : Verb, ∃ result t t',
        ((verb.call ((⟨⟨.ofId "a", rfl⟩, [⟨.ofId "b", rfl⟩]⟩ : Name) ++
            Name.single ⟨.ofId "c", rfl⟩)).run (service.context ⟨"NC0"⟩)).serve s =
          some (result, t) ∧
        ((verb.call (.single ⟨.ofId "c", rfl⟩)).run (service.context ⟨"NC1"⟩)).serve s =
          some (result, t') ∧
        t.store.disk = t'.store.disk := by
  have hrun : (firstRun [.newContext,
      .call ⟨"NC0"⟩ (.bindContext (.single ⟨.ofId "a", rfl⟩) ⟨"NC1"⟩),
      .call ⟨"NC1"⟩ (.bindContext (.single ⟨.ofId "b", rfl⟩) ⟨"NC1"⟩)]).any (fun p =>
        p.2.1.store.disk.bound ⟨"NC0"⟩ ⟨.ofId "a", rfl⟩ = some (.context ⟨"NC1"⟩) ∧
          p.2.1.store.disk.bound ⟨"NC1"⟩ ⟨.ofId "b", rfl⟩ = some (.context ⟨"NC1"⟩)) = true := by
    decide +kernel
  obtain ⟨⟨service, s, history⟩, hrun, hbound⟩ := (Option.any_eq_true _ _).mp hrun
  obtain ⟨hroot, hself⟩ := of_decide_eq_true hbound
  obtain ⟨outcome, _, _, hleads, hsame, _⟩ := compound_delegates (Reached.firstRun hrun) ⟨"NC0"⟩
    ⟨⟨.ofId "a", rfl⟩, [⟨.ofId "b", rfl⟩]⟩ (.single ⟨.ofId "c", rfl⟩)
  have hcontext := (hleads ⟨"NC1"⟩).mpr (.through hroot (.through hself (.here _)))
  refine ⟨service, s, history, hrun, fun verb => ?_⟩
  obtain ⟨result, t, t', hserve, hserve', hdisk, _⟩ := hsame _ hcontext verb
  exact ⟨result, t, t', hserve, hserve', hdisk⟩

end Service

end Naming
