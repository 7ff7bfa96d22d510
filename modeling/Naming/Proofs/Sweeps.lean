import Naming.Proofs.Walks

namespace Naming

variable {α : Type}

namespace Server

/-- Nobody is inside the gate. -/
def Free (s : Server) : Prop := s.memory.gate = {}

/-- The server inside the gate while a sweep has closed it. -/
def closed (s : Server) : Server := { s with memory.gate.closed := true }

/-- The server once the sweep has opened the gate again. -/
def opened (s : Server) : Server := { s with memory.gate.closed := false }

end Server

theorem Request.serve_gated_exclusive (r : Request α) {s : Server} (h : s.Free) :
    (r.gated .exclusive).serve s = (r.serve s.closed).map fun p => (p.1, p.2.opened) := by
  have he : (Job.act (.enterGate .exclusive)).run s = some ((), s.closed) := by
    have hg : s.memory.gate = {} := h
    rw [Job.run_act]
    simp [Action.perform?, Gate.enter?, Server.closed, hg]
  refine (Job.run_bind_some he).trans ((Job.run_bind r _ _).trans ?_)
  unfold serve
  cases Job.run r s.closed <;> rfl

namespace Sweep

/-- A removal leaves the disk as it is and fails, or removes the record. -/
theorem serve_removal (key : ContextKey) {s : Server} (hs : s.memory.locks.Idle) :
    ∃ result t, (Active.during key .destroy .existing Active.remove).serve s = some (result, t) ∧
      t.memory.locks.Idle ∧ t.memory.unbound = s.memory.unbound ∧
      ((∃ failure, result = .error failure ∧ t.store.disk = s.store.disk) ∨
        result = .ok () ∧ t.store.disk = s.store.disk.remove key) := by
  rw [Active.serve_during key .destroy .existing _ hs]
  have hd := s.looked_disk key
  cases s.found key .existing with
  | error failure => exact ⟨_, _, rfl, rfl, rfl, .inl ⟨failure, rfl, hd⟩⟩
  | ok found =>
    obtain ⟨bindings, dirty⟩ := found
    have hidle := LockTable.idle_release_single s.memory.locks.fresh key
      (Active.accessFor .destroy .existing)
    simp only [Active.play_remove, Option.map_some]
    simp only [Active.holding, Server.note, Active.demanded, Active.accessFor,
      Operation.isMutating, Bool.true_or, if_true]
    rcases (s.looked key).remove_cases key with
      ⟨failure, store, hc, hstore⟩ | ⟨store, hc, hstore⟩
    · rw [hc]
      exact ⟨_, _, rfl, hidle, rfl, .inl ⟨_, rfl, hstore.trans hd⟩⟩
    · rw [hc]
      exact ⟨_, _, rfl, hidle, rfl, .inr ⟨rfl, hstore.trans (by rw [hd])⟩⟩

/-- What removals leave alone that spare the reachable and the unbound contexts. -/
structure Pruned (reachable : List ContextKey) (s t : Server) : Prop where
  locks : t.memory.locks.Idle
  unbound : t.memory.unbound = s.memory.unbound
  marks : t.store.disk.marks = s.store.disk.marks
  records : ∀ place, t.store.disk.contexts.get? place = s.store.disk.contexts.get? place ∨
    t.store.disk.contexts.get? place = none ∧
      ∃ key, place = Disk.place key ∧ key ∉ reachable ∧ key ∉ s.memory.unbound

theorem Pruned.trans {reachable : List ContextKey} {s t u : Server} (h : Pruned reachable s t)
    (h' : Pruned reachable t u) : Pruned reachable s u := by
  refine ⟨h'.locks, h'.unbound.trans h.unbound, h'.marks.trans h.marks, fun place => ?_⟩
  rcases h'.records place with hsame | ⟨hgone, key, hk, hr, hu⟩
  · rcases h.records place with hs | ⟨hgone, hkey⟩
    · exact .inl (hsame.trans hs)
    · exact .inr ⟨hsame.trans hgone, hkey⟩
  · exact .inr ⟨hgone, key, hk, hr, h.unbound ▸ hu⟩

theorem pruned_unchanged {reachable : List ContextKey} {s t : Server}
    (hi : t.memory.locks.Idle) (hu : t.memory.unbound = s.memory.unbound)
    (hd : t.store.disk = s.store.disk) : Pruned reachable s t :=
  ⟨hi, hu, by rw [hd], fun _ => .inl (by rw [hd])⟩

theorem pruned_removal {reachable : List ContextKey} {key : ContextKey} {s t : Server}
    (hi : t.memory.locks.Idle) (hu : t.memory.unbound = s.memory.unbound)
    (hr : key ∉ reachable) (hk : key ∉ s.memory.unbound)
    (hd : t.store.disk = s.store.disk.remove key) : Pruned reachable s t := by
  refine ⟨hi, hu, by rw [hd]; rfl, fun place => ?_⟩
  rw [hd, Disk.get?_remove]
  by_cases hplace : place = Disk.place key
  · exact .inr ⟨if_pos hplace, key, hplace, hr, hk⟩
  · exact .inl (if_neg hplace)

theorem serve_isUnbound (key : ContextKey) (s : Server) :
    (Request.act (.isUnbound key)).serve s = some (.ok (s.memory.unbound.contains key), s) :=
  Request.serve_act _ _

/-- The removals of a sweep spare what they are to spare, also when one of them fails. -/
theorem serve_removeOthers (reachable keys : List ContextKey) {s : Server}
    (hs : s.memory.locks.Idle) : ∃ result t,
      (removeOthers reachable keys).serve s = some (result, t) ∧ Pruned reachable s t := by
  induction keys generalizing s with
  | nil => exact ⟨_, _, rfl, hs, rfl, rfl, fun _ => .inl rfl⟩
  | cons key rest ih =>
    unfold removeOthers
    rw [Request.serve_bind, serve_isUnbound]
    dsimp only
    split
    · exact ih hs
    · rename_i hcond
      simp only [Bool.or_eq_true, List.contains_iff_mem, not_or] at hcond
      obtain ⟨result, t, ht, hi, hu, hd⟩ := serve_removal key hs
      rw [Request.serve_bind, ht]
      rcases hd with ⟨failure, rfl, hd⟩ | ⟨rfl, hd⟩
      · exact ⟨_, t, rfl, pruned_unchanged hi hu hd⟩
      · have hp := pruned_removal hi hu hcond.1 hcond.2 hd
        obtain ⟨result, u, hserve, hp'⟩ := ih hi
        dsimp only
        rw [Request.serve_bind, hserve]
        cases result with
        | error failure => exact ⟨_, u, rfl, hp.trans hp'⟩
        | ok removed => exact ⟨_, u, rfl, hp.trans hp'⟩

/-- What a sweep does once it has closed the gate and knows how far to walk. -/
def within (root : ContextKey) (limit : Nat) : Request (List ContextKey) := do
  match ← reach limit [] [root] with
  | none => return []
  | some reachable =>
    let keys ← Request.ofStorage (Job.act .keys)
    let removed ← removeOthers reachable keys
    Request.note ⟨.info, .service, "Swept unreachable naming contexts",
      [("removed", .number removed.length)]⟩
    return removed

theorem serve_sweep (service : Service) {s : Server} (h : s.Free) :
    service.sweep.serve s =
      ((within service.root s.census).serve s.closed).map fun p => (p.1, p.2.opened) :=
  Request.serve_gated_exclusive _ h

theorem linkCount_lt_census (s : Server) : s.store.disk.linkCount < s.census := by
  unfold Server.census
  omega

theorem serve_keys (s : Server) :
    (Request.ofStorage (Job.act .keys)).serve s =
      some (s.store.keys.1.mapError .ofStorage, { s with store := s.store.keys.2 }) :=
  Request.serve_ofStorage _ _

/-- A sweep whose walk fails removes nothing; any other spares what it is to spare. -/
theorem serve_within (root : ContextKey) {s : Server} (hs : s.memory.locks.Idle)
    (ha : s.Agrees) {limit : Nat} (hl : s.store.disk.linkCount < limit) :
    ∃ result t, (within root limit).serve s = some (result, t) ∧
      ((∃ cause, result = .error (.ofStorage cause) ∧ t.store.disk = s.store.disk) ∨
        ∃ w, Walk.Reached root s w ∧ w.queue = [] ∧ Pruned w.seen s t) := by
  obtain ⟨w, walked, t, hw, hended⟩ := Walk.ends hs ha (Walk.Reached.start : Walk.Reached root s _)
  have hreach := hw.reach_ended hended hs ha hl
  have hsensible := hw.sensible hs ha
  unfold within
  rw [Request.serve_bind, hreach]
  cases hended with
  | failed unknown found =>
    obtain ⟨_, _, hserve, hu, hfailed⟩ :=
      serve_links _ hsensible.untouched.locks hsensible.agrees
    rw [found] at hserve
    cases hserve
    rcases hfailed with ⟨hok, _⟩ | ⟨cause, hcause, _⟩
    · cases hok
    · cases hcause
      exact ⟨_, t, rfl, .inl ⟨cause, rfl, hu.disk.trans hsensible.untouched.disk⟩⟩
  | finished =>
    rename_i seen
    have hwalked : Pruned seen s t := pruned_unchanged hsensible.untouched.locks
      hsensible.untouched.unbound hsensible.untouched.disk
    have hlisted : Pruned seen t { t with store := t.store.keys.2 } :=
      pruned_unchanged hwalked.locks rfl t.store.keys_disk
    dsimp only
    rw [Request.serve_bind, serve_keys]
    cases t.store.keys.1 with
    | error failure => exact ⟨_, _, rfl, .inr ⟨_, hw, rfl, hwalked.trans hlisted⟩⟩
    | ok keys =>
      obtain ⟨result, u, hserve, hpruned⟩ := serve_removeOthers seen keys hlisted.locks
      have hp := hwalked.trans (hlisted.trans hpruned)
      have hkeys : (Except.ok keys).mapError Failure.ofStorage = .ok keys := rfl
      rw [hkeys]
      dsimp only
      rw [Request.serve_bind, hserve]
      cases result with
      | error failure => exact ⟨_, u, rfl, .inr ⟨_, hw, rfl, hp⟩⟩
      | ok removed =>
        exact ⟨_, _, rfl, .inr ⟨_, hw, rfl, hp.locks, hp.unbound, hp.marks, hp.records⟩⟩

/-- The walk of a sweep comes to a context that it cannot load. -/
def FailsAt (root key : ContextKey) (cause : StorageFailure) (s : Server) : Prop :=
  ∃ seen queue u, Walk.Reached root s.closed ⟨seen, key :: queue, u⟩ ∧ key ∉ seen ∧
    u.memory.resident.get? key = none ∧ (u.store.load key).1 = .error cause

theorem FailsAt.within {root key : ContextKey} {cause : StorageFailure} {s : Server}
    (h : FailsAt root key cause s) (hs : s.memory.locks.Idle) (ha : s.Agrees) {limit : Nat}
    (hl : s.store.disk.linkCount < limit) :
    ∃ t, (within root limit).serve s.closed = some (.error (.ofStorage cause), t) ∧
      t.store.disk = s.store.disk := by
  obtain ⟨seen, queue, u, hw, unknown, hr, hload⟩ := h
  have hsensible := hw.sensible hs ha
  obtain ⟨t, ht, hu⟩ := serve_links_failing hsensible.untouched.locks hr hload
  have hreach := hw.reach_ended (.failed unknown ht) hs ha hl
  refine ⟨t, ?_, hu.disk.trans hsensible.untouched.disk⟩
  unfold Sweep.within
  rw [Request.serve_bind, hreach]

end Sweep

/-- Whatever is on the disk and whichever calls fail, a sweep ends and removes nothing that can be
reached or is yet to be bound; if its walk cannot go on, it removes nothing at all. -/
theorem Service.sweep_safe (service : Service) {s : Server} (hs : s.memory.locks.Idle)
    (hg : s.Free) (ha : s.Agrees) : ∃ result t, service.sweep.serve s = some (result, t) ∧
      (∀ place, t.store.disk.contexts.get? place ≠ s.store.disk.contexts.get? place →
        t.store.disk.contexts.get? place = none ∧ ∃ key, place = Disk.place key ∧
          ¬ s.store.disk.Reaches service.root key ∧ key ∉ s.memory.unbound) ∧
      t.store.disk.contexts.get? (Disk.place service.root) =
        s.store.disk.contexts.get? (Disk.place service.root) ∧
      (∀ key cause, Sweep.FailsAt service.root key cause s →
        result = .error (.ofStorage cause) ∧ t.store.disk = s.store.disk) ∧
      (∀ key cause, s.store.disk.Reaches service.root key →
        s.store.disk.load key = .error cause →
          ∃ reason, result = .error (.ofStorage reason) ∧ t.store.disk = s.store.disk) := by
  have hl := Sweep.linkCount_lt_census s
  obtain ⟨result, t, hserve, houtcome⟩ :=
    Sweep.serve_within (s := s.closed) service.root hs ha hl
  have hsweep : service.sweep.serve s = some (result, t.opened) := by
    rw [Sweep.serve_sweep service hg, hserve]
    rfl
  have hfailing : ∀ key cause, Sweep.FailsAt service.root key cause s →
      result = .error (.ofStorage cause) ∧ t.store.disk = s.store.disk := by
    intro key cause hfails
    obtain ⟨u, hu, hd⟩ := hfails.within hs ha hl
    rw [hserve] at hu
    cases hu
    exact ⟨rfl, hd⟩
  refine ⟨result, t.opened, hsweep, ?_⟩
  rcases houtcome with ⟨cause, hresult, hd⟩ | ⟨w, hw, hq, hpruned⟩
  · have hd : t.opened.store.disk = s.store.disk := hd
    refine ⟨fun place hne => ?_, by rw [hd], hfailing, fun _ _ _ _ => ⟨cause, hresult, hd⟩⟩
    rw [hd] at hne
    exact absurd rfl hne
  · have hseen : ∀ key, key ∈ w.seen ↔ s.store.disk.Reaches service.root key :=
      fun key => (hw.sensible hs ha).mem_seen_iff hq
    refine ⟨fun place hne => ?_, ?_, hfailing, fun key cause hr hload => ?_⟩
    · rcases hpruned.records place with hsame | ⟨hgone, key, hp, hk, hu⟩
      · exact absurd hsame hne
      · exact ⟨hgone, key, hp, fun hr => hk ((hseen key).mpr hr), hu⟩
    · rcases hpruned.records (Disk.place service.root) with hsame | ⟨_, key, hp, hk, _⟩
      · exact hsame
      · exact absurd ((hseen key).mpr (Disk.place_injective hp ▸ .root)) hk
    · obtain ⟨r, hok⟩ := (hw.sensible hs ha).loaded key ((hseen key).mpr hr)
      have hok : s.store.disk.load key = .ok r := hok
      rw [hload] at hok
      cases hok

/-- A server on a disk where the root leads to a context whose record does not decode, and where
another context cannot be reached. -/
def Server.damaged : Server :=
  let link : Binding := ⟨.ofId "a", .context ⟨"NC1"⟩⟩
  let root : Record := ⟨Record.currentVersion, ⟨"NC0"⟩, .ofList [link]⟩
  let other : Record := ⟨Record.currentVersion, ⟨"NC2"⟩, {}⟩
  let contexts : Tree := ⟨[(Disk.place ⟨"NC0"⟩, root.encode), (Disk.place ⟨"NC1"⟩, [255]),
    (Disk.place ⟨"NC2"⟩, other.encode)]⟩
  { store := { disk := { contexts := contexts } }, memory := {} }

theorem Service.sweep_safe_damaged : ∃ reason t,
    (Service.sweep ⟨⟨"NC0"⟩⟩).serve Server.damaged = some (.error (.ofStorage reason), t) ∧
      t.store.disk = Server.damaged.store.disk := by
  obtain ⟨result, t, hserve, _, _, _, hdamaged⟩ :=
    Service.sweep_safe (s := Server.damaged) ⟨⟨"NC0"⟩⟩ rfl rfl nofun
  have hlink : (⟨"NC1"⟩ : ContextKey) ∈ Server.damaged.store.disk.links ⟨"NC0"⟩ := by
    decide +kernel
  obtain ⟨reason, rfl, hd⟩ := hdamaged ⟨"NC1"⟩ _ (.step .root hlink) rfl
  exact ⟨reason, t, hserve, hd⟩

namespace Sweep

theorem links_orderly (key : ContextKey) : Orderly false false (links key) := by
  refine .bind (.attempt (.look _ _ _ _)) fun found => ?_
  cases found with
  | ok keys => exact .pure _
  | error failure => cases failure <;> first | exact .pure _ | exact .throw _

theorem reach_orderly (limit : Nat) (seen queue : List ContextKey) :
    Orderly false false (reach limit seen queue) := by
  induction limit generalizing seen queue with
  | zero => exact .pure _
  | succ limit ih =>
    unfold reach
    split
    · exact .pure _
    · exact .bind (links_orderly _) fun next => ih _ _

theorem removeOthers_orderly (reachable keys : List ContextKey) :
    Orderly false false (removeOthers reachable keys) := by
  induction keys with
  | nil => exact .pure _
  | cons key rest ih =>
    refine .bind (.act (.isUnbound key)) fun unbound => ?_
    split
    · exact ih
    · exact .bind (.during _ _ _ .remove) fun _ => .bind ih fun _ => .pure _

theorem within_orderly (root : ContextKey) (limit : Nat) :
    Orderly false false (within root limit) := by
  refine .bind (reach_orderly _ _ _) fun reached => ?_
  cases reached with
  | none => exact .pure _
  | some reachable =>
    exact .bind (.ofStorage (.act .keys)) fun keys =>
      .bind (removeOthers_orderly _ keys) fun removed => .bind (.note _) fun _ => .pure _

/-- How far a walk may go makes no difference once there is room for all links. -/
theorem serve_within_congr (root : ContextKey) {s : Server} (hs : s.memory.locks.Idle)
    (ha : s.Agrees) {limit other : Nat} (hl : s.store.disk.linkCount < limit)
    (ho : s.store.disk.linkCount < other) :
    (within root limit).serve s = (within root other).serve s := by
  obtain ⟨w, result, t, hw, hended⟩ := Walk.ends hs ha (Walk.Reached.start : Walk.Reached root s _)
  unfold within
  rw [Request.serve_bind, Request.serve_bind, hw.reach_ended hended hs ha hl,
    hw.reach_ended hended hs ha ho]

end Sweep

/-- A sweep at rest ends, and leaves the server at rest. -/
theorem Service.sweep_serves (service : Service) {s : Server} (hs : s.memory.locks.Idle)
    (hg : s.Free) : ∃ result t, service.sweep.serve s = some (result, t) ∧ s.Kept t ∧
      t.memory.unbound = s.memory.unbound := by
  obtain ⟨result, t, hserve, hk, hu⟩ :=
    (Sweep.within_orderly service.root s.census).serves (s := s.closed) hs nofun
  refine ⟨result, t.opened, ?_, ⟨hk.locks, ?_, fun hsound => ?_⟩, hu rfl⟩
  · rw [Sweep.serve_sweep service hg, hserve]
    rfl
  · have hgate : s.memory.gate = {} := hg
    simp [Server.opened, hk.gate, Server.closed, hgate]
  · have ht := hk.sound ⟨hsound.disk, hsound.resident⟩
    exact ⟨ht.disk, ht.resident⟩

/-- Twins are swept alike, although each has its own census. -/
theorem Service.sweep_twins (service : Service) {s t : Server} (h : s.Twins t) (hg : s.Free) :
    ∃ result s' t', service.sweep.serve s = some (result, s') ∧
      service.sweep.serve t = some (result, t') ∧ s'.Twins t' ∧ s'.Free := by
  have hgt : t.Free := h.alike.gate.symm.trans hg
  have hclosed : s.closed.Twins t.closed := by
    refine ⟨⟨h.alike.store, h.alike.locks, ?_, h.alike.unbound⟩, h.idle,
      ⟨h.left.disk, h.left.resident⟩, ⟨h.right.disk, h.right.resident⟩, h.spared⟩
    simp only [Server.closed, h.alike.gate]
  obtain ⟨result, s', t', hs, ht, htwins, hgate⟩ :=
    (Sweep.within_orderly service.root s.census).twins hclosed nofun
  -- the second server takes its own census, but either leaves room for the whole walk
  have hlimit : t.store.disk.linkCount < s.census :=
    h.alike.store.disk ▸ Sweep.linkCount_lt_census s
  rw [Sweep.serve_within_congr (s := t.closed) service.root (h.alike.locks ▸ h.idle)
    h.right.agrees hlimit (Sweep.linkCount_lt_census t)] at ht
  refine ⟨result, s'.opened, t'.opened, ?_, ?_, ⟨⟨htwins.alike.store, htwins.alike.locks, ?_,
    htwins.alike.unbound⟩, htwins.idle, ⟨htwins.left.disk, htwins.left.resident⟩,
    ⟨htwins.right.disk, htwins.right.resident⟩, htwins.spared⟩, ?_⟩
  · rw [Sweep.serve_sweep service hg, hs]
    rfl
  · rw [Sweep.serve_sweep service hgt, ht]
    rfl
  · simp only [Server.opened, htwins.alike.gate]
  · have hfree : s.memory.gate = {} := hg
    simp [Server.Free, Server.opened, hgate, Server.closed, hfree]

end Naming
