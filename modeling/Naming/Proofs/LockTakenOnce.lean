import Naming.Proofs.LockVisits

namespace Naming

variable {α β : Type}

namespace Active

theorem job_edit {c : Active} (hc : c.access = .exclusive)
    (change : BindingSet → Except Failure (α × BindingSet)) :
    (edit change).run.run c = .done (match change c.bindings with
      | .error failure => (.error failure, { c with dirty := true })
      | .ok (a, bindings) => (.ok a, { c with dirty := true, bindings := bindings })) := by
  obtain ⟨_, _, _, _, _, _, _⟩ := c
  cases hc
  change (match change _ with
      | .error failure => (throw failure : Use α)
      | .ok (a, bindings) => _ : Use α).run.run _ = _
  dsimp only
  cases change _ <;> rfl

theorem job_commit {c : Active} (hc : c.access = .exclusive) :
    commit.run.run c = .step (.save c.key c.bindings) fun r => .done (match r with
      | .error failure => (.error (.ofStorage failure), c)
      | .ok () => (.ok (), { c with dirty := false })) := by
  obtain ⟨_, _, _, _, _, _, _⟩ := c
  cases hc
  refine congrArg (Job.step (.save _ _)) (funext fun r => ?_)
  cases r <;> rfl

theorem job_remove {c : Active} (hc : c.access = .exclusive) :
    remove.run.run c = .step (.remove c.key) fun r => .done (match r with
      | .error failure => (.error (.ofStorage failure), c)
      | .ok _ => (.ok (), { c with removed := true })) := by
  obtain ⟨_, _, _, _, _, _, _⟩ := c
  cases hc
  refine congrArg (Job.step (.remove _)) (funext fun r => ?_)
  cases r <;> rfl

theorem job_look (view : BindingSet → Except Failure α) (c : Active) :
    (look view).run.run c = .done (view c.bindings, c) := by
  have hget : ∀ use : Active → Use α, (get >>= use : Use α).run.run c = (use c).run.run c :=
    fun _ => rfl
  rw [look, hget]
  cases view c.bindings <;> rfl

theorem job_demandRecord (key : ContextKey) (c : Active) :
    (Context.demandRecord (.context key)).run.run c =
      if key = c.key then .done (.ok (), c)
      else .step (.contains key) fun r => .done (match r with
        | .error failure => (.error (.ofStorage failure), c)
        | .ok true => (.ok (), c)
        | .ok false => (.error (.noContext key), c)) := by
  change (if key = c.key then (pure () : Use Unit) else _).run.run c = _
  split
  · rfl
  · refine congrArg (Job.step (.contains key)) (funext fun r => ?_)
    cases r with
    | error failure => rfl
    | ok found => cases found <;> rfl

theorem job_find (key : ContextKey) (intent : Intent) :
    (find key intent).run = .step (.resident key) fun kept => match kept with
      | some bindings => .done (.ok (bindings, false))
      | none => .step (.load key) fun loaded => .done (match loaded, intent with
        | .error failure, _ => .error (.ofStorage failure)
        | .ok (some bindings), _ => .ok (bindings, false)
        | .ok none, .create => .ok (.empty, true)
        | .ok none, .existing => .error (.noContext key)) := by
  refine congrArg (Job.step (.resident key)) (funext fun kept => ?_)
  cases kept with
  | some bindings => rfl
  | none =>
    refine congrArg (Job.step (.load key)) (funext fun loaded => ?_)
    cases loaded with
    | error failure => rfl
    | ok found =>
      cases found with
      | some bindings => rfl
      | none => cases intent <;> rfl

/-- Where a use takes an active context: to a result, a context and a store, whatever follows. -/
def Leads (use : Use α) (c : Active) (s : Store) (result : Except Failure α) (c' : Active)
    (s' : Store) : Prop :=
  ∀ ⦃β : Type⦄ ⦃answer : β⦄ ⦃last : Store⦄ ⦃tidy : Bool⦄
    ⦃next : Except Failure α × Active → Job β⦄,
    Job.Holds c.key c.lock c.access answer last false s' (next (result, c')) →
      Job.Holds c.key c.lock c.access answer last tidy s ((use.run.run c).bind next)

theorem Leads.of_done {use : Use α} {c c' : Active} {s : Store} {result : Except Failure α}
    (h : use.run.run c = .done (result, c')) : Leads use c s result c' s := by
  intro _ _ _ _ next hnext
  rw [h]
  exact hnext.relax

/-- A proper use of a context that it has for itself leads to where it ends when it is played. -/
theorem Proper.leads {use : Use α} (h : Proper use) {c c' : Active} {s s' : Server}
    {result : Except Failure α} (hc : c.access = .exclusive)
    (hp : play use c s = some ((result, c'), s')) : Leads use c s.store result c' s'.store := by
  induction h generalizing c c' s s' with
  | pure a | throw failure | get =>
    cases hp
    exact .of_done rfl
  | ofStorage outcome =>
    rw [play_ofStorage] at hp
    cases hp
    cases outcome <;> exact .of_done rfl
  | bind first next ihFirst ihNext =>
    obtain ⟨between, b, t, hfirst, hf⟩ := first.plays c s
    rw [play_bind, hfirst] at hp
    intro β answer last tidy rest hrest
    change Job.Holds _ _ _ _ _ _ _ (Job.bind (Job.bind _ _) rest)
    rw [Job.bind_assoc]
    refine ihFirst hc hfirst ?_
    cases between with
    | error failure =>
      cases hp
      exact hrest
    | ok a =>
      have hsecond : Leads _ b t.store result c' s'.store := ihNext a (hf.access.trans hc) hp
      unfold Leads at hsecond
      rw [hf.key, hf.lock, hf.access] at hsecond
      exact hsecond hrest
  | contains key =>
    rw [play_contains] at hp
    cases hp
    intro β answer last tidy rest hrest
    exact .contains hc key hrest.relax
  | edit regular =>
    rename_i change
    have hjob := job_edit hc change
    rw [play, hjob] at hp
    obtain ⟨hresult, rfl⟩ := Prod.mk.inj (Option.some.inj hp)
    exact .of_done (hjob.trans (congrArg Job.done hresult))
  | commit =>
    rw [play_commit, demanded_exclusive hc] at hp
    intro β answer last tidy rest hrest
    rw [job_commit hc]
    refine .save hc c.bindings ?_
    dsimp only at hp ⊢
    generalize s.store.save c.key c.bindings = saved at hp ⊢
    obtain ⟨outcome, store⟩ := saved
    cases outcome <;> cases hp <;> exact hrest
  | remove =>
    rw [play_remove, demanded_exclusive hc] at hp
    intro β answer last tidy rest hrest
    rw [job_remove hc]
    refine .remove hc ?_
    dsimp only at hp ⊢
    generalize s.store.remove c.key = removed at hp ⊢
    obtain ⟨outcome, store⟩ := removed
    cases outcome <;> cases hp <;> exact hrest

/-- A use to which the number of the lock makes no difference. -/
def Blind (use : Use α) : Prop :=
  ∀ (c : Active) (s : Server) (id : Nat), play use { c with lock := id } s =
    (play use c s).map fun p => ((p.1.1, { p.1.2 with lock := id }), p.2)

theorem Blind.bind {use : Use α} {f : α → Use β} (h : Blind use) (hf : ∀ a, Blind (f a)) :
    Blind (use >>= f) := by
  intro c s id
  rw [play_bind, play_bind, h]
  cases play use c s with
  | none => rfl
  | some p =>
    obtain ⟨⟨result, b⟩, t⟩ := p
    cases result with
    | error failure => rfl
    | ok a => exact hf a b t id

theorem blind_look (view : BindingSet → Except Failure α) : Blind (look view) := by
  intro c s id
  rw [play_look, play_look]
  rfl

theorem blind_edit (change : BindingSet → Except Failure (α × BindingSet)) :
    Blind (edit change) := by
  intro c s id
  have hsame : ({ c with lock := id } : Active).demanded "modify" = c.demanded "modify" := rfl
  rw [play_edit, play_edit, hsame]
  cases c.demanded "modify" with
  | error failure => rfl
  | ok _ => cases change c.bindings <;> rfl

theorem blind_commit : Blind commit := by
  intro c s id
  have hsame : ({ c with lock := id } : Active).demanded "commit" = c.demanded "commit" := rfl
  rw [play_commit, play_commit, hsame]
  cases c.demanded "commit" with
  | error failure => rfl
  | ok _ =>
    dsimp only
    obtain ⟨result, store⟩ := s.store.save c.key c.bindings
    cases result <;> rfl

theorem blind_remove : Blind remove := by
  intro c s id
  have hsame : ({ c with lock := id } : Active).demanded "remove" = c.demanded "remove" := rfl
  rw [play_remove, play_remove, hsame]
  cases c.demanded "remove" with
  | error failure => rfl
  | ok _ =>
    dsimp only
    obtain ⟨result, store⟩ := s.store.remove c.key
    cases result <;> rfl

theorem blind_contains (key : ContextKey) : Blind (perform (.contains key)) := by
  intro c s id
  rw [play_contains, play_contains]
  rfl

theorem blind_ofStorage (result : Except StorageFailure α) : Blind (Active.ofStorage result) := by
  intro c s id
  rw [play_ofStorage, play_ofStorage]
  rfl

theorem blind_demandRecord (target : Target) : Blind (Context.demandRecord target) := by
  cases target with
  | object reference => exact fun _ _ _ => rfl
  | context key =>
    have hcheck : Blind (do
        if ← Active.ofStorage (← perform (.contains key)) then pure ()
        else throw (.noContext key)) := by
      refine .bind (blind_contains key) fun result => .bind (blind_ofStorage result) fun found => ?_
      cases found <;> exact fun _ _ _ => rfl
    intro c s id
    unfold Context.demandRecord
    rw [play_bind, play_bind, play_get, play_get]
    dsimp only
    split
    · rfl
    · exact hcheck c s id

/-- What a use of a context with these bindings comes to, whatever the number of the lock is: a
result, a store, and a context that can be released. -/
def Comes (use : Use α) (key : ContextKey) (operation : Operation) (access : Access)
    (bindings : BindingSet) (s : Store) (result : Except Failure α) (last : Store) : Prop :=
  ∀ id, ∃ c', Leads use ⟨key, operation, bindings, false, false, id, access⟩ s result c' last ∧
    c'.key = key ∧ c'.lock = id ∧ c'.access = access ∧
    last.Backs key (if c'.dirty || c'.removed then none else some c'.bindings)

variable {key : ContextKey} {operation : Operation} {bindings : BindingSet} {s : Store}

theorem Proper.comes {use : Use α} (h : Proper use) (hblind : Blind use) (hs : s.disk.Sound)
    (hl : s.disk.load key = .ok (some bindings)) :
    ∃ result last, Comes use key operation .exclusive bindings s result last := by
  obtain ⟨result, c', t, hp, hf⟩ := h.plays ⟨key, operation, bindings, false, false, 0, .exclusive⟩
    { store := s, memory := {} }
  have hflight := hf.inFlight ⟨hs, hs.regular hl, fun _ _ => hl, nofun⟩
  refine ⟨result, t.store, fun id => ⟨{ c' with lock := id }, ?_, hf.key, rfl, hf.access, ?_⟩⟩
  · have hid := hblind ⟨key, operation, bindings, false, false, 0, .exclusive⟩
      { store := s, memory := {} } id
    rw [hp] at hid
    exact h.leads rfl hid
  · intro kept hk
    split at hk
    · cases hk
    · rename_i hclean
      cases hk
      simp only [Bool.or_eq_true, not_or, Bool.not_eq_true] at hclean
      exact hf.key ▸ hflight.stored hclean.1 hclean.2

theorem comes_look (view : BindingSet → Except Failure α) (access : Access)
    (hl : s.disk.load key = .ok (some bindings)) :
    Comes (look view) key operation access bindings s (view bindings) s := by
  intro id
  refine ⟨_, .of_done (job_look view _), rfl, rfl, rfl, fun kept hk => ?_⟩
  cases hk
  exact hl

/-- What an activation does once it has the lock with this number. -/
def within (key : ContextKey) (operation : Operation) (intent : Intent) (use : Use α) (id : Nat) :
    Job (Except Failure α) :=
  (find key intent).run.bind fun
    | .error failure => .step (.leaveLock id (accessFor operation intent)) fun _ =>
        .step (.releaseIdle key) fun _ => .done (.error failure)
    | .ok (bindings, dirty) =>
      .step (.note (event "Activated context" key operation [("bindings", .number bindings.size)]))
        fun _ => (use.run.run
            ⟨key, operation, bindings, dirty, false, id, accessFor operation intent⟩).bind
          fun p => p.2.release.bind fun _ => .done p.1

theorem during_eq (key : ContextKey) (operation : Operation) (intent : Intent) (use : Use α) :
    during key operation intent use = Job.step (.referLock key) fun id =>
      Job.step (.enterLock id (accessFor operation intent)) fun _ =>
        within key operation intent use id := by
  refine congrArg (Job.step _) (funext fun id => congrArg (Job.step _) (funext fun _ => ?_))
  refine (Job.bind_assoc (find key intent).run _ _).trans
    (congrArg (Job.bind _) (funext fun found => ?_))
  cases found <;> rfl

/-- An activation finds what is on the disk, in memory or not. -/
theorem holds_find {id : Nat} {access : Access} {answer : β} {last : Store}
    {next : Except Failure (BindingSet × Bool) → Job β}
    (h : Job.Holds key id access answer last true s (next (s.disk.found key .existing))) :
    Job.Holds key id access answer last true s ((find key .existing).run.bind next) := by
  unfold Disk.found at h
  refine .resident fun kept hk => ?_
  cases kept with
  | some bindings =>
    rw [hk bindings rfl] at h
    exact h
  | none =>
    refine .load ?_
    generalize s.disk.load key = loaded at h ⊢
    cases loaded with
    | error failure => exact h
    | ok found => cases found <;> exact h

/-- An activation of an existing context takes its lock once. -/
theorem during_visits {use : Use α} (hu : ∀ s bindings, s.disk.Sound →
      s.disk.load key = .ok (some bindings) → ∃ result last,
        Comes use key operation (accessFor operation .existing) bindings s result last) :
    Job.Visits key (accessFor operation .existing) (within key operation .existing use)
      (during key operation .existing use) := by
  refine ⟨during_eq key operation .existing use ▸ .refer, fun s hs => ?_⟩
  have hfailed : ∀ failure, s.disk.found key .existing = .error failure → ∃ answer last, ∀ id,
      Job.Holds key id (accessFor operation .existing) answer last true s
        (within key operation .existing use id) := by
    intro failure hfound
    refine ⟨.error failure, s, fun id => holds_find ?_⟩
    rw [hfound]
    exact .leave (.refl s) (.releaseIdle .done)
  cases hl : s.disk.load key with
  | error failure => exact hfailed (.ofStorage failure) (by unfold Disk.found; rw [hl])
  | ok found =>
    cases found with
    | none => exact hfailed (.noContext key) (by unfold Disk.found; rw [hl])
    | some bindings =>
      obtain ⟨result, last, hcomes⟩ := hu s bindings hs hl
      refine ⟨result, last, fun id => holds_find ?_⟩
      obtain ⟨c', hleads, rfl, rfl, haccess, hbacks⟩ := hcomes id
      unfold Disk.found
      rw [hl]
      refine .aside (.note _) fun _ => hleads ?_
      refine .settle _ hbacks (.aside (.note _) fun _ => ?_)
      dsimp only
      rw [← haccess]
      exact .leave (.refl last) (.releaseIdle .done)

end Active

namespace Request

/-- A request that takes the lock of a key once. -/
def Visits (key : ContextKey) (r : Request α) : Prop :=
  ∃ access body, Job.Visits key access body r

variable {key : ContextKey} {r : Request α}

theorem Visits.bind {f : α → Request β} (h : r.Visits key)
    (hf : ∀ a, ∃ b, Job.Trails key b (f a)) : (r >>= f).Visits key := by
  obtain ⟨access, body, hvisits⟩ := h
  refine ⟨access, _, hvisits.bind fun result => ?_⟩
  cases result with
  | error failure => exact ⟨_, .done⟩
  | ok a => exact hf a

theorem Visits.map (h : r.Visits key) (f : α → β) :
    (r >>= fun a => (pure (f a) : Request β)).Visits key :=
  h.bind fun a => ⟨.ok (f a), .done⟩

theorem Visits.gated (h : r.Visits key) : (r.gated .shared).Visits key := by
  obtain ⟨access, body, hvisits⟩ := h
  have hinside : Job.Visits key access _ (Job.bind r fun result =>
      .step (.leaveGate .shared) fun _ => .done result) :=
    hvisits.bind fun result => ⟨result, .aside .leaveGate fun _ => .done⟩
  exact ⟨access, _, .aside .enterGate fun _ => hinside.heads, hinside.holds⟩

end Request

namespace Context

variable {c : Context}

theorem during_visits {use : Active.Use α} (h : Active.Proper use) (hblind : Active.Blind use)
    (key : ContextKey) {operation : Operation} (hop : operation.isMutating = true) :
    (Active.during key operation .existing use).Visits key := by
  have haccess : Active.accessFor operation .existing = .exclusive := by
    simp [Active.accessFor, hop]
  refine ⟨_, _, Active.during_visits fun s bindings hs hl => ?_⟩
  rw [haccess]
  exact h.comes hblind hs hl

theorem look_visits (key : ContextKey) (operation : Operation)
    (view : BindingSet → Except Failure α) :
    (Active.during key operation .existing (Active.look view)).Visits key :=
  ⟨_, _, Active.during_visits fun _ _ _ hl => ⟨_, _, Active.comes_look view _ hl⟩⟩

theorem bindTarget_visits (c : Context) (label : Label) (target : Target) (placement : Placement)
    {operation : Operation} (hop : operation.isMutating = true) :
    (c.bindTarget (.single label) target placement operation).Visits c.key := by
  have hbound : (Active.during c.key operation .existing do
      demandRecord target
      Active.edit (placement.change ⟨label.val, target⟩)
      Active.commit).Visits c.key :=
    during_visits (.bind (proper_demandRecord target) fun _ =>
        .bind (.edit fun _ _ _ => placement.change_regular _) fun _ => .commit)
      (.bind (Active.blind_demandRecord target) fun _ =>
        .bind (Active.blind_edit _) fun _ => Active.blind_commit) c.key hop
  refine Request.Visits.gated (hbound.bind fun _ => ?_)
  cases target with
  | context key => exact ⟨.ok (), .aside (.clearUnbound key) fun _ => .done⟩
  | object reference => exact ⟨.ok (), .done⟩

theorem unbind_visits (c : Context) (label : Label) : (c.unbind (.single label)).Visits c.key := by
  have hmutating : Operation.unbind.isMutating = true := rfl
  refine during_visits (.bind (Active.proper_look _) fun _ =>
      .bind (.edit fun s _ t hs ht => ?_) fun _ => .commit)
    (.bind (Active.blind_look _) fun _ =>
      .bind (Active.blind_edit _) fun _ => Active.blind_commit) c.key hmutating
  cases ht
  exact hs.remove _

theorem destroy_visits (hc : c.key ≠ c.root) : c.destroy.Visits c.key := by
  have hmutating : Operation.destroy.isMutating = true := rfl
  have hremoved := during_visits
    (.bind (Active.proper_look fun s => if s.isEmpty then .ok () else .error (.notEmpty c.key))
      fun _ => .remove) (.bind (Active.blind_look _) fun _ => Active.blind_remove) c.key hmutating
  unfold destroy
  rw [if_neg hc]
  exact hremoved.bind fun _ => ⟨.ok (), .aside (.clearUnbound c.key) fun _ => .done⟩

end Context

namespace Call

/-- Calls that concern the bindings of one context under one label, or the context as a whole. -/
inductive Local : Call → Prop
  | bind (label : Label) (reference : String) : Local (.bind (.single label) reference)
  | bindContext (label : Label) (key : ContextKey) : Local (.bindContext (.single label) key)
  | rebind (label : Label) (reference : String) : Local (.rebind (.single label) reference)
  | rebindContext (label : Label) (key : ContextKey) : Local (.rebindContext (.single label) key)
  | resolve (label : Label) : Local (.resolve (.single label))
  | unbind (label : Label) : Local (.unbind (.single label))
  | list (max : Nat) : Local (.list max)
  | destroy : Local .destroy

/-- A local call takes the lock of its context once, unless it is to destroy the root. -/
theorem Local.visits {call : Call} (h : call.Local) {c : Context} (hc : c.key ≠ c.root) :
    (call.run c).Visits c.key := by
  cases h with
  | bind label reference => exact (c.bindTarget_visits label _ _ rfl).map _
  | bindContext label key => exact (c.bindTarget_visits label _ _ rfl).map _
  | rebind label reference => exact (c.bindTarget_visits label _ _ rfl).map _
  | rebindContext label key => exact (c.bindTarget_visits label _ _ rfl).map _
  | resolve label => exact (Context.look_visits c.key .resolve _).map _
  | unbind label => exact (c.unbind_visits label).map _
  | list max => exact (Context.look_visits c.key .list _).map _
  | destroy => exact (Context.destroy_visits hc).map _

end Call

end Naming
