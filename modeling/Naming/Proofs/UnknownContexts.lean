import Naming.Proofs.CallOutcomes
import Naming.Proofs.Garbage

namespace Naming

namespace Disk

variable {α : Type} {d e : Disk} {key parent created : ContextKey}

theorem look_unknown (h : d.contains key = false) (view : BindingSet → Except Failure α) :
    d.look key view = .error (.noContext key) := by
  unfold look found
  rw [load_of_not_contains h]
  rfl

/-- A walk from a context without a record comes to nothing, unless it takes no step. -/
theorem walkFrom_unknown {first last : Label} {rest : List Label} (h : d.contains key = false)
    (hw : d.walkFrom key first rest = .ok (parent, last)) :
    rest = [] ∧ parent = key ∧ last = first := by
  cases rest with
  | nil =>
    cases hw
    exact ⟨rfl, rfl, rfl⟩
  | cons next rest =>
    obtain ⟨child, hlook, _⟩ := bind_ok hw
    rw [look_unknown h] at hlook
    cases hlook

theorem bind_unknown {name : Name} {target : Target} {placement : Context.Placement}
    (h : d.contains key = false) : d.bind key name target placement ≠ .ok e := by
  intro hbind
  obtain ⟨⟨parent, last⟩, hwalk, hbound⟩ := bind_ok hbind
  obtain ⟨_, rfl, rfl⟩ := walkFrom_unknown h hwalk
  obtain ⟨_, hstored, _⟩ := bindLast_put hbound
  rw [h] at hstored
  cases hstored

theorem unbind_unknown {name : Name} (h : d.contains key = false) : d.unbind key name ≠ .ok e := by
  intro hunbind
  obtain ⟨⟨parent, last⟩, hwalk, hbound⟩ := bind_ok hunbind
  obtain ⟨_, rfl, rfl⟩ := walkFrom_unknown h hwalk
  obtain ⟨_, hstored, _⟩ := unbindLast_put hbound
  rw [h] at hstored
  cases hstored

theorem resolve_unknown {name : Name} {target : Target} (h : d.contains key = false) :
    d.resolve key name ≠ .ok target := by
  intro hresolve
  obtain ⟨⟨parent, last⟩, hwalk, hlook⟩ := bind_ok hresolve
  obtain ⟨_, rfl, rfl⟩ := walkFrom_unknown h hwalk
  dsimp only at hlook
  rw [look_unknown h] at hlook
  cases hlook

/-- Only a context that is just being made can be bound in a context without a record, and only in
itself. -/
theorem bindNew_unknown {name : Name} (h : d.contains key = false)
    (hb : d.bindNew key name = .ok (created, e)) :
    name.rest = [] ∧ created = key ∧
      e.load key = .ok (some (.ofList [⟨name.first.val, .context key⟩])) := by
  obtain ⟨⟨parent, last⟩, hwalk, hb⟩ := bind_ok hb
  obtain ⟨hrest, rfl, rfl⟩ := walkFrom_unknown h hwalk
  obtain ⟨⟨made, f⟩, hmade, hb⟩ := bind_ok hb
  obtain ⟨g, hbound, he⟩ := bind_ok hb
  cases he
  obtain ⟨bindings, changed, hload, _, hchange, hput⟩ := bindLast_ok hbound
  obtain ⟨a, hallocate, hempty⟩ := create_ok hmade
  have hself : created = parent := by
    obtain ⟨_, _, _, _, hcontexts⟩ := allocate_ok hallocate
    have hstored := contains_of_load hload
    rw [contains_put hempty, contains_eq a, hcontexts, ← contains_eq, h, Bool.or_false,
      decide_eq_true_eq] at hstored
    exact hstored.symm
  subst hself
  rw [load_created hmade] at hload
  cases hload
  cases hchange
  exact ⟨hrest, rfl, load_save (put_ok hput)⟩

end Disk

variable {s t : Server} {n : Nat}

/-- On a context without a record no call succeeds, but for one that makes this very context and
binds it in itself. -/
theorem Call.told_unknown {c : Context} {call : Call} {d e : Disk} {reply : Reply}
    (h : d.contains c.key = false) (ht : call.told c d = .ok (reply, e)) :
    ∃ name, call = .bindNewContext name ∧ name.rest = [] ∧ reply = .context c.key ∧
      (∃ f, d.create = .ok (c.key, f)) ∧
      e.load c.key = .ok (some (.ofList [⟨name.first.val, .context c.key⟩])) := by
  cases call with
  | bind name reference | bindContext name key | rebind name reference | rebindContext name key =>
    obtain ⟨_, hdone, _⟩ := Store.map_ok ht
    exact absurd hdone (Disk.bind_unknown h)
  | unbind name =>
    obtain ⟨_, hdone, _⟩ := Store.map_ok ht
    exact absurd hdone (Disk.unbind_unknown h)
  | resolve name =>
    obtain ⟨_, hdone, _⟩ := Store.map_ok ht
    exact absurd hdone (Disk.resolve_unknown h)
  | resolveText text =>
    obtain ⟨name, _, hdone⟩ := bind_ok ht
    obtain ⟨_, hdone, _⟩ := Store.map_ok hdone
    exact absurd hdone (Disk.resolve_unknown h)
  | list max | toText name =>
    obtain ⟨_, hdone, _⟩ := Store.map_ok ht
    rw [Disk.look_unknown h] at hdone
    cases hdone
  | toName text =>
    obtain ⟨_, hdone, _⟩ := bind_ok ht
    rw [Disk.look_unknown h] at hdone
    cases hdone
  | newContext =>
    obtain ⟨_, hdone, _⟩ := Store.map_ok ht
    obtain ⟨_, hlook, _⟩ := bind_ok hdone
    rw [Disk.look_unknown h] at hlook
    cases hlook
  | destroy =>
    obtain ⟨_, hdone, _⟩ := Store.map_ok ht
    unfold Disk.destroy at hdone
    split at hdone
    · cases hdone
    · obtain ⟨_, hlook, _⟩ := bind_ok hdone
      rw [Disk.look_unknown h] at hlook
      cases hlook
  | bindNewContext name =>
    obtain ⟨⟨created, f⟩, hdone, he⟩ := Store.map_ok ht
    cases he
    obtain ⟨hrest, rfl, hload⟩ := Disk.bindNew_unknown h hdone
    obtain ⟨_, _, hdone⟩ := bind_ok hdone
    obtain ⟨⟨_, g⟩, hmade, hdone⟩ := bind_ok hdone
    obtain ⟨_, _, he⟩ := bind_ok hdone
    cases he
    exact ⟨name, rfl, hrest, rfl, ⟨g, hmade⟩, hload⟩

/-- When no call is refused, a request that fails leaves every record as it was. -/
theorem Store.Leaves.records {s t : Store} {creates bindsNew : Bool}
    (h : Leaves creates bindsNew s t) (hw : s.Willing) :
    t.disk.contexts = s.disk.contexts := by
  cases h with
  | same same => rw [same]
  | spent _ handed =>
    obtain ⟨_, _, _, _, hcontexts⟩ := Disk.allocate_ok handed
    exact hcontexts
  | orphaned _ _ cleanup =>
    obtain ⟨_, hrefused⟩ := cleanup.refused
    exact absurd hrefused hw.not_refused

/-- A request to a context without a record fails and leaves the records as they were, unless its
key is the next to be handed out and the request is to make a context and to bind it: then the new
context has this key, and is bound in itself. -/
theorem Service.handle_unknown {service : Service} {history : History}
    (h : Reached (fun _ _ => false) (some service) s history) {key : String}
    (hkey : s.store.disk.contains ⟨key⟩ = false) (operation : String) (call : Call) :
    ∃ result t, (service.handle key operation call).serve s = some (result, t) ∧
      ((∃ failure, result = .error failure ∧
          t.store.disk.contexts = s.store.disk.contexts) ∨
        ∃ name n, call = .bindNewContext name ∧ name.isSingle = true ∧
          s.store.disk.highWaterMark = .ok n ∧ (⟨key⟩ : ContextKey) = .ofIndex n ∧
          result = .ok (.context ⟨key⟩) ∧
          t.store.disk.load ⟨key⟩ = .ok (some (.ofList [⟨name.first.val, .context ⟨key⟩⟩]))) := by
  have hsettled := h.settled
  obtain ⟨n, hkeyed, _⟩ := h.keyed
  have hwilling : s.store.Willing := hsettled.faults
  obtain ⟨result, t, hserve, _⟩ := (service.handle_orderly key operation call).serves
    hsettled.rest.idle fun _ => hsettled.rest.ready.opened
  refine ⟨result, t, hserve, ?_⟩
  rcases Service.handle_cases hserve with ⟨failure, rfl, rfl⟩ | ⟨event, hcall⟩
  · exact .inl ⟨failure, rfl, rfl⟩
  · have hends := Call.run_ends (s := s.note event) (hsettled.rest.ready.note event)
      ⟨hsettled.sound.disk, hsettled.sound.resident⟩ hkeyed (h.root_below hkeyed) hcall
    cases result with
    | error failure => exact .inl ⟨failure, rfl, hends.leaves.records hwilling⟩
    | ok reply =>
      obtain ⟨name, hname, hrest, hreply, ⟨f, hmade⟩, hload⟩ :=
        Call.told_unknown hkey hends.told_ok
      refine .inr ⟨name, n, hname, ?_, hkeyed.counter, (hkeyed.created hmade).1,
        congrArg Except.ok hreply, hload⟩
      rw [Name.isSingle, hrest]
      rfl

/-- A context that was never made is asked for its bindings. -/
theorem Service.handle_unknown_listed : ∃ service s history,
    firstRun [] = some (service, s, history) ∧
      ∃ failure t, (service.handle "NC1" "list" (.list 10)).serve s = some (.error failure, t) ∧
        t.store.disk.contexts = s.store.disk.contexts := by
  have hrun : (firstRun []).any (fun p => !p.2.1.store.disk.contains ⟨"NC1"⟩) = true := by
    decide +kernel
  obtain ⟨⟨service, s, history⟩, hrun, habsent⟩ := (Option.any_eq_true _ _).mp hrun
  rw [Bool.not_eq_true'] at habsent
  obtain ⟨result, t, hserve, hcases⟩ :=
    Service.handle_unknown (Reached.firstRun hrun) habsent "list" (.list 10)
  rcases hcases with ⟨failure, rfl, hsame⟩ | ⟨name, n, hcall, _⟩
  · exact ⟨service, s, history, hrun, failure, t, hserve, hsame⟩
  · cases hcall

/-- Not every request to a context without a record fails: one that makes a context can make the
very context that it is sent to. -/
theorem Service.handle_unknown_made : ¬ ∀ (service : Service) (s : Server) (history : History)
    (key : String) (call : Call), Reached (fun _ _ => false) (some service) s history →
      s.store.disk.contains ⟨key⟩ = false →
      ∃ failure t, (service.handle key call.operation.name call).serve s =
        some (.error failure, t) ∧ t.store.disk.contexts = s.store.disk.contexts := by
  intro h
  have hrun : (firstRun []).any (fun p => !p.2.1.store.disk.contains ⟨"NC1"⟩ &&
      ((p.1.handle "NC1" "bind_new_context" (.bindNewContext (.single ⟨.ofId "a", rfl⟩))).serve
        p.2.1).any fun q => q.1.toOption.isSome) = true := by
    decide +kernel
  obtain ⟨⟨service, s, history⟩, hrun, hmade⟩ := (Option.any_eq_true _ _).mp hrun
  obtain ⟨habsent, hmade⟩ := Bool.and_eq_true_iff.mp hmade
  obtain ⟨q, hq, hsome⟩ := (Option.any_eq_true _ _).mp hmade
  rw [Bool.not_eq_true'] at habsent
  obtain ⟨failure, t, hserve, _⟩ := h service s history "NC1"
    (.bindNewContext (.single ⟨.ofId "a", rfl⟩)) (Reached.firstRun hrun) habsent
  cases hq.symm.trans hserve
  cases hsome

end Naming
