import Naming.Proofs.RootStable

namespace Naming

variable {α β : Type}

namespace Server

/-- Two sound servers with the same disk at the same point of their failures. They may differ in
what they keep in memory, in how they number their locks, and in which contexts count as unbound. -/
structure Akin (s t : Server) : Prop where
  store : s.store.Alike t.store
  gate : s.memory.gate = t.memory.gate
  leftIdle : s.memory.locks.Idle
  rightIdle : t.memory.locks.Idle
  left : s.Sound
  right : t.Sound
  spared : s.store.Spares .load

variable {s t s' t' : Server}

theorem Twins.akin (h : s.Twins t) : s.Akin t :=
  ⟨h.alike.store, h.alike.gate, h.idle, h.alike.locks ▸ h.idle, h.left, h.right, h.spared⟩

/-- Akin servers stay akin that keep what they are to keep and whose stores stay alike. -/
theorem Akin.after (h : s.Akin t) (halike : s'.store.Alike t'.store) (hs : s.Kept s')
    (ht : t.Kept t') (hf : s'.store.faults.fails = s.store.faults.fails) : s'.Akin t' :=
  ⟨halike, hs.gate.trans (h.gate.trans ht.gate.symm), hs.locks, ht.locks, hs.sound h.left,
    ht.sound h.right, fun n => hf ▸ h.spared n⟩

end Server

/-- A request that does the same on akin servers, which stay akin. -/
def Request.Agrees (r : Request α) : Prop :=
  ∀ s t : Server, s.Akin t → s.memory.gate.closed = false → ∃ result s' t',
    r.serve s = some (result, s') ∧ r.serve t = some (result, t') ∧ s'.Akin t' ∧
      s'.memory.gate = s.memory.gate

namespace Request

variable {r : Request α}

/-- An orderly request does the same on akin servers if it answers the same and leaves the stores
alike. -/
theorem Agrees.of_orderly (h : Orderly true true r)
    (hr : ∀ s t : Server, s.Akin t → s.memory.gate.closed = false → ∃ result s' t',
      r.serve s = some (result, s') ∧ r.serve t = some (result, t') ∧ s'.store.Alike t'.store) :
    r.Agrees := by
  intro s t hst hg
  obtain ⟨result, s', t', hs, ht, halike⟩ := hr s t hst hg
  have hks := h.kept hst.leftIdle (fun _ => hg) hs
  have hkt := h.kept hst.rightIdle (fun _ => hst.gate ▸ hg) ht
  exact ⟨result, s', t', hs, ht, hst.after halike hks hkt (Job.run_fails hs), hks.gate⟩

theorem Agrees.bind {f : α → Request β} (h : r.Agrees) (hf : ∀ a, (f a).Agrees) :
    (r >>= f).Agrees := by
  intro s t hst hg
  obtain ⟨result, s', t', hs, ht, hst', hgate⟩ := h s t hst hg
  rw [serve_bind, serve_bind, hs, ht]
  cases result with
  | error failure => exact ⟨_, s', t', rfl, rfl, hst', hgate⟩
  | ok a =>
    obtain ⟨result, s'', t'', hs', ht', hst'', hgate'⟩ := hf a s' t' hst' (hgate ▸ hg)
    exact ⟨result, s'', t'', hs', ht', hst'', hgate'.trans hgate⟩

theorem agrees_ofExcept (result : Except Failure α) : (ofExcept result).Agrees :=
  fun s t hst _ => ⟨result, s, t, rfl, rfl, hst, rfl⟩

theorem Agrees.attempt (h : r.Agrees) : r.attempt.Agrees := by
  intro s t hst hg
  obtain ⟨result, s', t', hs, ht, hst', hgate⟩ := h s t hst hg
  rw [serve_attempt, serve_attempt, hs, ht]
  exact ⟨_, s', t', rfl, rfl, hst', hgate⟩

theorem Agrees.gated (h : r.Agrees) : (r.gated .shared).Agrees := by
  intro s t hst hg
  have hgt : t.memory.gate.closed = false := hst.gate ▸ hg
  have hentered : s.entered.Akin t.entered := by
    refine ⟨hst.store, ?_, hst.leftIdle, hst.rightIdle, ⟨hst.left.disk, hst.left.resident⟩,
      ⟨hst.right.disk, hst.right.resident⟩, hst.spared⟩
    simp only [Server.entered, hst.gate]
  obtain ⟨result, s', t', hs, ht, hst', hgate⟩ := h s.entered t.entered hentered hg
  rw [serve_gated_shared _ hg, serve_gated_shared _ hgt, hs, ht]
  refine ⟨result, s'.left, t'.left, rfl, rfl, ⟨hst'.store, ?_, hst'.leftIdle, hst'.rightIdle,
    ⟨hst'.left.disk, hst'.left.resident⟩, ⟨hst'.right.disk, hst'.right.resident⟩, hst'.spared⟩, ?_⟩
  · simp only [Server.left, hst'.gate]
  · simp only [Server.left, hgate, Server.entered, Gate.leave, Nat.add_sub_cancel]

/-- A step that asks nothing of the store and answers nothing. -/
theorem agrees_act {action : Action} (h : action.Steady true)
    (hsame : ∀ s t : Server, s.store.Alike t.store → ∃ r s' t', action.perform? s = some (r, s') ∧
      action.perform? t = some (r, t') ∧ s'.store.Alike t'.store) :
    (Request.act action).Agrees := by
  refine .of_orderly (.act h) fun s t hst _ => ?_
  obtain ⟨r, s', t', hs, ht, halike⟩ := hsame s t hst.store
  rw [serve_act, serve_act, hs, ht]
  exact ⟨_, s', t', rfl, rfl, halike⟩

theorem agrees_note (event : Log.Event) : (note event).Agrees :=
  agrees_act (.note event) fun _ _ halike => ⟨_, _, _, rfl, rfl, halike⟩

theorem agrees_clearUnbound (key : ContextKey) : (Request.act (.clearUnbound key)).Agrees :=
  agrees_act (.clearUnbound key) fun _ _ halike => ⟨_, _, _, rfl, rfl, halike⟩

theorem agrees_markUnbound (key : ContextKey) : (Request.act (.markUnbound key)).Agrees :=
  agrees_act (.markUnbound key) fun _ _ halike => ⟨_, _, _, rfl, rfl, halike⟩

theorem agrees_keys : (Request.ofStorage (Job.act .keys)).Agrees := by
  refine .of_orderly (.ofStorage (.act .keys)) fun s t hst _ => ?_
  obtain ⟨result, u, v, hu, hv, halike⟩ := hst.store.keys
  rw [serve_ofStorage, serve_ofStorage, Job.run_act, Job.run_act]
  simp only [Action.perform?, hu, hv]
  exact ⟨_, _, _, rfl, rfl, halike⟩

theorem agrees_allocate : (Request.ofStorage (Job.act .allocate)).Agrees := by
  refine .of_orderly (.ofStorage (.act .allocate)) fun s t hst _ => ?_
  obtain ⟨result, u, v, hu, hv, halike⟩ := hst.store.allocate
  rw [serve_ofStorage, serve_ofStorage, Job.run_act, Job.run_act]
  simp only [Action.perform?, hu, hv]
  cases result <;> exact ⟨_, _, _, rfl, rfl, halike⟩

end Request

/-- An activation whose use takes no notice of the number of its lock does the same on akin
servers. -/
theorem Active.during_agrees {use : Active.Use α} (h : Active.Proper use)
    (hblind : Active.Blind use)
    (key : ContextKey) (operation : Operation) (intent : Intent) :
    (Active.during key operation intent use).Agrees := by
  refine .of_orderly (.during key operation intent h) fun s t hst _ => ?_
  have hlooked : (s.looked key).Alike (t.looked key) :=
    (s.looked_alike key).trans (hst.store.trans (t.looked_alike key).symm)
  have hspared : t.store.Spares .load := fun n => hst.store.fails ▸ hst.spared n
  rw [Active.serve_during key operation intent use hst.leftIdle,
    Active.serve_during key operation intent use hst.rightIdle, hst.left.found_eq hst.spared,
    hst.right.found_eq hspared, hst.store.disk]
  cases t.store.disk.found key intent with
  | error failure => exact ⟨_, _, _, rfl, rfl, hlooked⟩
  | ok found =>
    obtain ⟨bindings, dirty⟩ := found
    obtain ⟨result, c, s', t', hs, ht, halike⟩ := h.alike
      (c := ⟨key, operation, bindings, dirty, false, s.memory.locks.fresh,
        Active.accessFor operation intent⟩)
      (s := (Active.holding s key (Active.accessFor operation intent)).note
        (Active.event "Activated context" key operation [("bindings", .number bindings.size)]))
      (t := (Active.holding t key (Active.accessFor operation intent)).note
        (Active.event "Activated context" key operation [("bindings", .number bindings.size)]))
      hlooked
    -- the second server numbers its lock otherwise
    have ht := hblind ⟨key, operation, bindings, dirty, false, s.memory.locks.fresh,
        Active.accessFor operation intent⟩ ((Active.holding t key
          (Active.accessFor operation intent)).note (Active.event "Activated context" key operation
            [("bindings", .number bindings.size)])) t.memory.locks.fresh |>.trans (by rw [ht])
    dsimp only at ht ⊢
    rw [hs, ht]
    exact ⟨_, _, _, rfl, rfl, halike⟩

theorem createContext_agrees : createContext.Agrees := by
  refine .gated (.bind Request.agrees_allocate fun key => ?_)
  exact .bind (Active.during_agrees .commit Active.blind_commit key .newContext .create) fun _ =>
    .bind (Request.agrees_note _) fun _ => Request.agrees_ofExcept (.ok key)

/-- Requests that keep to the rules take no notice of what a restart loses. -/
theorem Civil.agrees {root : ContextKey} {inside makes : Bool} {r : Request α}
    (h : Civil root inside makes r) : r.Agrees := by
  induction h with
  | done result => exact Request.agrees_ofExcept result
  | bind first next quiet ihFirst ihNext => exact .bind ihFirst ihNext
  | map first f ih => exact .bind ih fun a => Request.agrees_ofExcept (.ok (f a))
  | attempt tried ih => exact .attempt ih
  | gated within ih => exact .gated ih
  | note event => exact Request.agrees_note event
  | clear key => exact Request.agrees_clearUnbound key
  | keys => exact Request.agrees_keys
  | allocate => exact Request.agrees_allocate
  | create key => exact Active.during_agrees .commit Active.blind_commit key .newContext .create
  | createUnbound =>
    exact .gated (.bind createContext_agrees fun key =>
      .bind (Request.agrees_markUnbound key) fun _ => Request.agrees_ofExcept (.ok key))
  | look key operation view =>
    exact Active.during_agrees (Active.proper_look view) (Active.blind_look view) _ _ _
  | edit key operation mutating edits permitted =>
    exact Active.during_agrees edits.proper edits.blind _ _ _
  | remove other view =>
    exact Active.during_agrees (Active.proper_removing view) (Active.blind_removing view) _ _ _

/-- What a client does next: it asks for a task, or for a listing to go on with later, or for more
of a listing that it has. -/
inductive Errand where
  | task (given : Task)
  | list (key : ContextKey) (max : Nat)
  | next (cursor : Nat)
  | take (cursor count : Nat)

namespace Errand

/-- What comes of an errand. A listing gives its first page, and the cursor is kept. -/
inductive Yield where
  | answered (answer : Except Failure Answer)
  | listed (page : Except Failure (List Binding))
  | yielded (bindings : List Binding)

/-- Does an errand for a client with these cursors. A cursor that the client does not have yields
nothing. -/
def run (service : Service) (s : Server) (cursors : List Cursor) :
    Errand → Option (Yield × Server × List Cursor)
  | task given =>
    ((given.request service).serve s).map fun p => (.answered p.1, p.2, cursors)
  | list key max =>
    (((service.context key).list max).serve s).map fun p => match p.1 with
      | .error failure => (.listed (.error failure), p.2, cursors)
      | .ok (page, more) => (.listed (.ok page), p.2, cursors ++ more.toList)
  | next i => match cursors[i]? with
    | none => some (.yielded [], s, cursors)
    | some c => some (.yielded c.next.1.toList, s, cursors.set i c.next.2)
  | take i count => match cursors[i]? with
    | none => some (.yielded [], s, cursors)
    | some c => some (.yielded (c.take count).1, s, cursors.set i (c.take count).2)

end Errand

/-- A client does an errand, or the service is started again on the same disk. -/
inductive Stage where
  | errand (given : Errand)
  | restart (retention : Retention)

namespace Stage

def isErrand : Stage → Bool
  | errand _ => true
  | restart _ => false

end Stage

/-- Starts a service anew on the disk of a server, of which nothing else is left. The store refuses
nothing to the start, and goes on to refuse what it was to refuse after that. -/
def Server.restarted (s : Server) (retention : Retention) :
    Option (Except Failure Service × Server) :=
  (Service.start.serve (s.store.disk.newServer retention {})).map fun p =>
    (p.1, { p.2 with store.faults := s.store.faults })

/-- What a client sees of a service and the disk below it: what comes of each errand and the disk
then, and the disk in the end. -/
structure Chronicle where
  entries : List (Errand.Yield × Disk)
  disk : Disk

/-- Goes through stages with one client. There is no chronicle when the service cannot be started
again. -/
def Service.attend (service : Service) (s : Server) (cursors : List Cursor) :
    List Stage → Option Chronicle
  | [] => some ⟨[], s.store.disk⟩
  | .errand given :: rest =>
    match given.run service s cursors with
    | none => none
    | some (result, t, cursors) => (service.attend t cursors rest).map fun c =>
        { c with entries := (result, t.store.disk) :: c.entries }
  | .restart retention :: rest =>
    match s.restarted retention with
    | some (.ok service, t) => service.attend t cursors rest
    | _ => none

/-- Starts a service on an empty store that refuses some calls, and goes through stages. -/
def Service.session (retention : Retention) (fails : StoreCall → Nat → Bool) (stages : List Stage) :
    Option (Except Failure Service × Chronicle) :=
  match Service.start.serve (({} : Disk).newServer retention ⟨fails, {}⟩) with
  | none => none
  | some (.error failure, s) => some (.error failure, ⟨[], s.store.disk⟩)
  | some (.ok service, s) => (service.attend s [] stages).map fun c => (.ok service, c)

namespace Service

variable {service : Service} {s t : Server}

/-- What comes up on the same store is akin to what was there before. -/
theorem restarted_akin {v : Server} {retention : Retention} (hst : s.Akin t) (hs : s.AtRest)
    (hrooted : s.Rooted service.root 0) (hstore : v.store = s.store)
    (hmemory : v.memory = { retention := retention }) :
    v.Akin t ∧ v.AtRest ∧ v.Rooted service.root 0 := by
  have hgate : t.memory.gate = {} := hst.gate.symm.trans hs.free
  refine ⟨⟨hstore ▸ hst.store, ?_, ?_, hst.rightIdle, ⟨hstore ▸ hst.left.disk, ?_⟩, hst.right,
    hstore ▸ hst.spared⟩, ⟨?_, ?_⟩, ⟨hstore ▸ hrooted.disk, ?_⟩⟩
  · rw [hmemory, hgate]
  · rw [hmemory]
    rfl
  · rw [hmemory]
    rintro key bindings ⟨⟩
  · rw [hmemory]
    rfl
  · rw [Server.Free, hmemory]
  · rw [hmemory]
    exact ⟨by rintro key bindings ⟨⟩, by rintro key ⟨⟩⟩

/-- A service can always be started again, and finds its root. -/
theorem restarts (hst : s.Akin t) (hs : s.AtRest) (hrooted : s.Rooted service.root 0)
    (retention : Retention) : ∃ v, s.restarted retention = some (.ok service, v) ∧ v.Akin t ∧
      v.AtRest ∧ v.Rooted service.root 0 := by
  obtain ⟨result, u, hserve, hdisk, hmemory, _, hresult⟩ := start_recorded
    (s := s.store.disk.newServer retention {}) hrooted.disk.recorded hrooted.disk.stored
  rcases hresult with rfl | ⟨_, hrefused⟩
  · refine ⟨{ u with store.faults := s.store.faults }, ?_, restarted_akin hst hs hrooted ?_ hmemory⟩
    · rw [Server.restarted, hserve]
      rfl
    · have hdisk : u.store.disk = s.store.disk := hdisk
      dsimp only
      rw [hdisk]
  · exact absurd (fun _ => rfl) hrefused

/-- A request that keeps to the rules comes to the same on akin servers, and keeps the root. -/
theorem requests {r : Request α} {inside makes : Bool} (h : Civil service.root inside makes r)
    (hst : s.Akin t) (hs : s.AtRest) (hrooted : s.Rooted service.root 0) :
    ∃ result s' t', r.serve s = some (result, s') ∧ r.serve t = some (result, t') ∧ s'.Akin t' ∧
      s'.AtRest ∧ s'.Rooted service.root 0 := by
  obtain ⟨result, s', t', hserve, hserve', hst', hgate⟩ := h.agrees s t hst hs.opened
  exact ⟨result, s', t', hserve, hserve', hst', ⟨hst'.leftIdle, hgate.trans hs.free⟩,
    (Job.Abides.run h.abides hrooted hserve).2⟩

/-- An errand comes to the same on akin servers, with the same cursors. -/
theorem errands {given : Errand} (h : given ≠ .task .sweep) (hst : s.Akin t) (hs : s.AtRest)
    (hrooted : s.Rooted service.root 0) (cursors : List Cursor) :
    ∃ result s' t' cursors', given.run service s cursors = some (result, s', cursors') ∧
      given.run service t cursors = some (result, t', cursors') ∧ s'.Akin t' ∧ s'.AtRest ∧
      s'.Rooted service.root 0 := by
  cases given with
  | task given =>
    have hcivil : Civil service.root true true (given.request service) :=
      given.request_civil service fun he => h (congrArg Errand.task he)
    obtain ⟨answer, s', t', hserve, hserve', hnext⟩ := requests hcivil hst hs hrooted
    refine ⟨.answered answer, s', t', cursors, ?_, ?_, hnext⟩
    · rw [Errand.run, hserve]
      rfl
    · rw [Errand.run, hserve']
      rfl
  | list key max =>
    have hcivil : Civil service.root true true ((service.context key).list max) := .look _ _ _
    obtain ⟨result, s', t', hserve, hserve', hnext⟩ := requests hcivil hst hs hrooted
    simp only [Errand.run, hserve, hserve', Option.map_some]
    cases result with
    | error failure => exact ⟨_, s', t', _, rfl, rfl, hnext⟩
    | ok page => exact ⟨_, s', t', _, rfl, rfl, hnext⟩
  | next i =>
    simp only [Errand.run]
    cases cursors[i]? with
    | none => exact ⟨_, s, t, _, rfl, rfl, hst, hs, hrooted⟩
    | some c => exact ⟨_, s, t, _, rfl, rfl, hst, hs, hrooted⟩
  | take i count =>
    simp only [Errand.run]
    cases cursors[i]? with
    | none => exact ⟨_, s, t, _, rfl, rfl, hst, hs, hrooted⟩
    | some c => exact ⟨_, s, t, _, rfl, rfl, hst, hs, hrooted⟩

/-- Restarts leave no trace in what a client sees of akin servers. -/
theorem attends {stages : List Stage} (h : .errand (.task .sweep) ∉ stages) (hst : s.Akin t)
    (hs : s.AtRest) (hrooted : s.Rooted service.root 0) (cursors : List Cursor) :
    ∃ c, service.attend s cursors stages = some c ∧
      service.attend t cursors (stages.filter Stage.isErrand) = some c := by
  induction stages generalizing s t cursors with
  | nil => exact ⟨_, rfl, by rw [List.filter_nil, attend, ← hst.store.disk]⟩
  | cons stage rest ih =>
    have hrest : .errand (.task .sweep) ∉ rest := fun hm => h (List.mem_cons_of_mem _ hm)
    cases stage with
    | errand given =>
      have hgiven : given ≠ .task .sweep := fun he => h (he ▸ List.mem_cons_self)
      obtain ⟨result, s', t', cursors', hrun, hrun', hst', hs', hrooted'⟩ :=
        errands hgiven hst hs hrooted cursors
      obtain ⟨c, hc, hc'⟩ := ih hrest hst' hs' hrooted' cursors'
      refine ⟨{ c with entries := (result, s'.store.disk) :: c.entries }, ?_, ?_⟩
      · simp only [attend, hrun, hc, Option.map_some]
      · rw [List.filter_cons_of_pos rfl]
        simp only [attend, hrun', hc', Option.map_some, hst'.store.disk]
    | restart retention =>
      obtain ⟨v, hrestarted, hvt, hv, hvrooted⟩ := restarts hst hs hrooted retention
      obtain ⟨c, hc, hc'⟩ := ih hrest hvt hv hvrooted cursors
      refine ⟨c, ?_, ?_⟩
      · simp only [attend, hrestarted, hc]
      · rwa [List.filter_cons_of_neg Bool.false_ne_true]

/-- Restarts are transparent: errands come to the same, pages and cursors included, however often
the service is started again between them and with any retention. -/
theorem restart_transparent (fails : StoreCall → Nat → Bool) (hl : ∀ n, fails .load n = false)
    (stages : List Stage) (h : .errand (.task .sweep) ∉ stages) (retention other : Retention) :
    ∃ outcome, session retention fails stages = some outcome ∧
      session other fails (stages.filter Stage.isErrand) = some outcome := by
  have htwins := empty_twins retention other fails hl
  obtain ⟨result, s, t, hserve, hserve', hst, hgate⟩ := start_orderly.twins htwins fun _ => rfl
  have hserve : start.serve (({} : Disk).newServer retention ⟨fails, {}⟩) = some (result, s) :=
    hserve
  have hserve' : start.serve (({} : Disk).newServer other ⟨fails, {}⟩) = some (result, t) := hserve'
  unfold session
  rw [hserve, hserve']
  cases result with
  | error failure => exact ⟨_, rfl, by simp only [hst.alike.store.disk]⟩
  | ok service =>
    rcases Site.bare_empty.start hserve with ⟨_, hfailed, _⟩ | ⟨service, hok, hrooted⟩
    · cases hfailed
    · cases hok
      obtain ⟨c, hc, hc'⟩ := attends h hst.akin ⟨hst.idle, hgate⟩
        ⟨hrooted.disk, hrooted.memory _ List.mem_cons_self⟩ []
      simp only [hc, hc', Option.map_some]
      exact ⟨_, rfl, rfl⟩

/-- A client binds two names and asks for the first of them. The service is started again, the
client asks for the next, and the save for a third name is refused. -/
def interrupted : List Stage :=
  [.errand (.task (.call ⟨"NC0"⟩ (.bind (.single ⟨.ofId "a", Eq.refl true⟩) "first"))),
    .errand (.task (.call ⟨"NC0"⟩ (.bind (.single ⟨.ofId "b", Eq.refl true⟩) "second"))),
    .errand (.list ⟨"NC0"⟩ 1), .restart (.cache 1), .errand (.next 0),
    .errand (.task (.call ⟨"NC0"⟩ (.bind (.single ⟨.ofId "c", Eq.refl true⟩) "third")))]

theorem restart_transparent_interrupted : ∃ outcome,
    session (.cache 1) (fun call made => decide (call = .save) && made == 3) interrupted =
      some outcome ∧
    session .none (fun call made => decide (call = .save) && made == 3)
      (interrupted.filter Stage.isErrand) = some outcome ∧ outcome.2.entries.length = 5 := by
  obtain ⟨outcome, hwith, hwithout⟩ :=
    restart_transparent (fun call made => decide (call = .save) && made == 3) (fun _ => rfl)
      interrupted (by simp [interrupted]) (.cache 1) .none
  have hlength : (session (.cache 1) (fun call made => decide (call = .save) && made == 3)
      interrupted).any (fun o => o.2.entries.length == 5) = true := by
    decide +kernel
  rw [hwith, Option.any_some, beq_iff_eq] at hlength
  exact ⟨outcome, hwith, hwithout, hlength⟩

end Service

end Naming
