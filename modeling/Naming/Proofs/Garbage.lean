import Naming.Proofs.Histories
import Naming.Proofs.Resolution

namespace Naming

variable {s t : Server}

namespace Sweep

/-- A record that is stored is removed when no call is refused. -/
theorem removal_exact {key : ContextKey} (hs : s.memory.locks.Idle) (hsound : s.Sound)
    (hw : s.store.Willing) (hc : s.store.disk.contains key = true) :
    ∃ t, (Active.during key .destroy .existing Active.remove).serve s = some (.ok (), t) ∧
      t.memory.locks.Idle ∧ t.Sound ∧ t.store.Willing ∧
      t.memory.unbound = s.memory.unbound ∧ t.store.disk = s.store.disk.remove key := by
  obtain ⟨result, t, hserve, hi, hu, hd⟩ := serve_removal key hs
  have hkept : s.Kept t :=
    (Orderly.during key .destroy .existing .remove : Orderly false false _).kept hs
      (fun h => Bool.noConfusion h) hserve
  have hok : result = .ok () := by
    obtain ⟨bindings, hload⟩ := hsound.disk.load_contained hc
    have hfound : s.found key .existing = .ok (bindings, false) := by
      rw [hsound.found_eq (hw.spares .load)]
      simp only [Disk.found, hload]
    have hspares : (s.looked key).Spares .remove := by
      have hfails := (s.looked_alike key).fails
      exact fun n => hfails ▸ hw.spares .remove n
    obtain ⟨store, hremove⟩ := Store.remove_spared hspares key
    rw [Active.serve_during key .destroy .existing _ hs, hfound] at hserve
    simp only [Active.play_remove, Option.map_some] at hserve
    simp only [Active.holding, Server.note, Active.demanded, Active.accessFor,
      Operation.isMutating, Bool.true_or, if_true] at hserve
    rw [hremove] at hserve
    cases hserve
    rfl
  rcases hd with ⟨failure, he, _⟩ | ⟨_, hd⟩
  · rw [hok] at he
    cases he
  · exact ⟨t, hok ▸ hserve, hi, hkept.sound hsound, (Job.run_fails hserve).trans hw, hu, hd⟩

/-- The keys whose records a sweep removes, among those that are stored. -/
def garbage (reachable unbound keys : List ContextKey) : List ContextKey :=
  keys.filter fun key => !(reachable.contains key || unbound.contains key)

theorem mem_garbage {reachable unbound keys : List ContextKey} {key : ContextKey} :
    key ∈ garbage reachable unbound keys ↔ key ∈ keys ∧ key ∉ reachable ∧ key ∉ unbound := by
  simp [garbage]

/-- When no call is refused, every removal succeeds. -/
theorem removeOthers_exact (reachable : List ContextKey) {keys : List ContextKey}
    (hs : s.memory.locks.Idle) (hsound : s.Sound) (hw : s.store.Willing) (hn : keys.Nodup)
    (hk : ∀ key ∈ keys, s.store.disk.contains key = true) :
    ∃ t, (removeOthers reachable keys).serve s =
        some (.ok (garbage reachable s.memory.unbound keys), t) ∧
      ∀ place, t.store.disk.contexts.get? place =
        if place ∈ (garbage reachable s.memory.unbound keys).map Disk.place then none
        else s.store.disk.contexts.get? place := by
  induction keys generalizing s with
  | nil => exact ⟨s, rfl, fun _ => rfl⟩
  | cons key rest ih =>
    obtain ⟨hnotin, hn⟩ := List.nodup_cons.mp hn
    unfold removeOthers
    rw [Request.serve_bind, serve_isUnbound]
    dsimp only
    cases hcond : reachable.contains key || s.memory.unbound.contains key with
    | true =>
      obtain ⟨t, ht, hrecords⟩ := ih hs hsound hw hn fun k hm => hk k (List.mem_cons_of_mem _ hm)
      have hg : garbage reachable s.memory.unbound (key :: rest) =
          garbage reachable s.memory.unbound rest :=
        List.filter_cons_of_neg (by rw [hcond]; decide)
      rw [if_pos rfl, hg]
      exact ⟨t, ht, hrecords⟩
    | false =>
      obtain ⟨u, hremoval, hi, husound, huwilling, hu, hd⟩ :=
        removal_exact hs hsound hw (hk key List.mem_cons_self)
      have hstored : ∀ k ∈ rest, u.store.disk.contains k = true := by
        intro k hm
        have hne : Disk.place k ≠ Disk.place key :=
          fun he => hnotin (Disk.place_injective he ▸ hm)
        have hbefore := hk k (List.mem_cons_of_mem _ hm)
        rw [Disk.contains, Tree.contains] at hbefore ⊢
        rw [hd, Disk.get?_remove, if_neg hne, hbefore]
      obtain ⟨t, ht, hrecords⟩ := ih hi husound huwilling hn hstored
      rw [hu] at ht hrecords
      have hg : garbage reachable s.memory.unbound (key :: rest) =
          key :: garbage reachable s.memory.unbound rest :=
        List.filter_cons_of_pos (by rw [hcond]; rfl)
      refine ⟨t, ?_, fun place => ?_⟩
      · rw [if_neg Bool.false_ne_true, Request.serve_bind, hremoval]
        dsimp only
        rw [Request.serve_bind, ht, hg]
        rfl
      · rw [hrecords place, hg, hd, Disk.get?_remove, List.map_cons]
        by_cases hp : place = Disk.place key
        · simp [hp]
        · simp [hp]

/-- When no call is refused and no record is damaged, a walk gets to the end of its queue. -/
theorem walk_finishes (root : ContextKey) (hs : s.memory.locks.Idle) (hsound : s.Sound)
    (hw : s.store.Willing) : ∃ seen u, Walk.Reached root s ⟨seen, [], u⟩ := by
  obtain ⟨w, result, t, hwalk, hended⟩ :=
    Walk.ends hs hsound.agrees (Walk.Reached.start : Walk.Reached root s _)
  have hsensible := hwalk.sensible hs hsound.agrees
  cases hended with
  | finished => exact ⟨_, _, hwalk⟩
  | failed unknown found =>
    rename_i key seen queue u failure
    obtain ⟨_, _, hserve, _, hresult⟩ :=
      serve_links key hsensible.untouched.locks hsensible.agrees
    rw [found] at hserve
    cases hserve
    rcases hresult with ⟨hok, _⟩ | ⟨cause, _, _, hload⟩
    · cases hok
    · -- the load went to a sound disk that refuses nothing
      have hspares : u.store.Spares .load := fun n => by
        rw [hsensible.untouched.fails, hw]
      rw [Store.load_spared hspares, hsensible.untouched.disk] at hload
      rcases hsound.disk.load_cases key with hnone | ⟨bindings, hsome, _⟩
      · rw [hnone] at hload
        cases hload
      · rw [hsome] at hload
        cases hload

theorem walk_sound {root : ContextKey} {w : Walk} (h : Walk.Reached root s w)
    (hs : s.memory.locks.Idle) (hsound : s.Sound) : w.server.Sound := by
  induction h with
  | start => exact hsound
  | step before last ih =>
    have hsensible := before.sensible hs hsound.agrees
    cases last with
    | skip known => exact ih
    | visit unknown found =>
      exact ((links_orderly _).kept hsensible.untouched.locks nofun found).sound ih

theorem listing_exact (hsound : s.Sound) (hw : s.store.Willing) {keys : List ContextKey}
    (hk : s.store.disk.keys = .ok keys) :
    ∃ t, (Request.ofStorage (Job.act .keys)).serve s = some (.ok keys, t) ∧ t.Sound ∧
      t.store.Willing ∧ t.memory = s.memory ∧ t.store.disk = s.store.disk := by
  have hd := s.store.keys_disk
  have hkeys : s.store.keys.1 = .ok keys := by
    rw [Store.keys, Store.call_spared (hw.spares .keys)]
    simp only [hk, Except.map]
  refine ⟨{ s with store := s.store.keys.2 }, ?_, ⟨hd ▸ hsound.disk, fun key bindings hr => ?_⟩,
    (s.store.call_fails _ _).trans hw, rfl, hd⟩
  · rw [serve_keys, hkeys]
    rfl
  · exact hd.symm ▸ hsound.resident key bindings hr

/-- When no call is refused and no record is damaged, a sweep removes all that it may. -/
theorem within_exact (root : ContextKey) (hs : s.memory.locks.Idle) (hsound : s.Sound)
    (hw : s.store.Willing) {limit : Nat} (hl : s.store.disk.linkCount < limit)
    {keys : List ContextKey} (hkeys : s.store.disk.keys = .ok keys) :
    ∃ reachable t, (∀ key, key ∈ reachable ↔ s.store.disk.Reaches root key) ∧
      (within root limit).serve s = some (.ok (garbage reachable s.memory.unbound keys), t) ∧
      t.store.disk.marks = s.store.disk.marks ∧
      ∀ place, t.store.disk.contexts.get? place =
        if place ∈ (garbage reachable s.memory.unbound keys).map Disk.place then none
        else s.store.disk.contexts.get? place := by
  obtain ⟨seen, u, hwalk⟩ := walk_finishes root hs hsound hw
  have hsensible := hwalk.sensible hs hsound.agrees
  have hdisk : u.store.disk = s.store.disk := hsensible.untouched.disk
  have hunbound : u.memory.unbound = s.memory.unbound := hsensible.untouched.unbound
  obtain ⟨v, hlisting, hvsound, hvwilling, hvmemory, hvdisk⟩ := listing_exact
    (walk_sound hwalk hs hsound) (hsensible.untouched.fails.trans hw) (hdisk ▸ hkeys)
  have hvdisk : v.store.disk = s.store.disk := hvdisk.trans hdisk
  have hvidle : v.memory.locks.Idle := hvmemory ▸ hsensible.untouched.locks
  have hvunbound : v.memory.unbound = s.memory.unbound := hvmemory ▸ hunbound
  have hstored : ∀ key ∈ keys, v.store.disk.contains key = true := by
    intro key hk
    rw [hvdisk]
    exact (hsound.disk.mem_keys hkeys).mp hk
  -- what the walk has seen is what can be reached, so only garbage is removed
  obtain ⟨t, ht, hrecords⟩ := removeOthers_exact seen hvidle hvsound hvwilling
    (hsound.disk.keys_nodup hkeys) hstored
  obtain ⟨_, _, ht', hpruned⟩ := serve_removeOthers seen keys hvidle
  rw [ht] at ht'
  cases ht'
  have hmarks := hpruned.marks
  rw [hvunbound] at ht hrecords
  rw [hvdisk] at hmarks hrecords
  refine ⟨seen, t.note ⟨.info, .service, "Swept unreachable naming contexts",
    [("removed", .number (garbage seen s.memory.unbound keys).length)]⟩,
    fun key => hsensible.mem_seen_iff rfl, ?_, hmarks, hrecords⟩
  unfold within
  rw [Request.serve_bind, hwalk.reach_ended .finished hs hsound.agrees hl]
  dsimp only
  rw [Request.serve_bind, hlisting]
  dsimp only
  rw [Request.serve_bind, ht]
  rfl

end Sweep

/-- What a sweep does on a sound server at rest that refuses no call. -/
structure Service.Collects (service : Service) (s t : Server) (removed : List ContextKey) :
    Prop where
  served : service.sweep.serve s = some (.ok removed, t)
  garbage : ∀ key, key ∈ removed ↔ s.store.disk.contains key = true ∧
    ¬ s.store.disk.Reaches service.root key ∧ key ∉ s.memory.unbound
  ordered : (removed.map Disk.place).Pairwise fun a b => Bytes.le a b = true ∧ a ≠ b
  records : ∀ place, t.store.disk.contexts.get? place =
    if place ∈ removed.map Disk.place then none else s.store.disk.contexts.get? place
  marks : t.store.disk.marks = s.store.disk.marks
  unbound : t.memory.unbound = s.memory.unbound
  rest : t.AtRest
  sound : t.Sound
  willing : t.store.Willing

theorem Service.sweep_collects (service : Service) (hs : s.AtRest) (hsound : s.Sound)
    (hw : s.store.Willing) : ∃ removed t, service.Collects s t removed := by
  obtain ⟨keys, hkeys, hplaces⟩ := hsound.disk.keys
  obtain ⟨reachable, t, hreachable, ht, hmarks, hrecords⟩ := Sweep.within_exact (s := s.closed)
    service.root hs.idle ⟨hsound.disk, hsound.resident⟩ hw (Sweep.linkCount_lt_census s) hkeys
  have hserve : service.sweep.serve s =
      some (.ok (Sweep.garbage reachable s.memory.unbound keys), t.opened) := by
    rw [Sweep.serve_sweep service hs.free, ht]
    rfl
  obtain ⟨_, _, hserve', hkept, hunbound⟩ := service.sweep_serves hs.idle hs.free
  rw [hserve] at hserve'
  cases hserve'
  refine ⟨_, _, hserve, fun key => ?_, ?_, hrecords, hmarks, hunbound,
    ⟨hkept.locks, hkept.gate.trans hs.free⟩, hkept.sound hsound, (Job.run_fails hserve).trans hw⟩
  · rw [Sweep.mem_garbage, hsound.disk.mem_keys hkeys, hreachable]
    rfl
  · have hsorted : (keys.map Disk.place).Pairwise fun a b => Bytes.le a b = true ∧ a ≠ b := by
      rw [hplaces]
      exact List.pairwise_map.mpr hsound.disk.sorted
    exact hsorted.sublist (List.filter_sublist.map _)

namespace Service.Collects

variable {service : Service} {removed : List ContextKey}

theorem mem_places (key : ContextKey) :
    Disk.place key ∈ removed.map Disk.place ↔ key ∈ removed := by
  constructor
  · intro h
    obtain ⟨k, hk, he⟩ := List.mem_map.mp h
    exact Disk.place_injective he ▸ hk
  · exact fun h => List.mem_map_of_mem h

/-- What is not removed stays as it was. -/
theorem kept (h : service.Collects s t removed) {key : ContextKey} (hk : key ∉ removed) :
    t.store.disk.contexts.get? (Disk.place key) = s.store.disk.contexts.get? (Disk.place key) := by
  rw [h.records, if_neg fun hm => hk ((mem_places key).mp hm)]

theorem kept_reachable (h : service.Collects s t removed) {key : ContextKey}
    (hr : s.store.disk.Reaches service.root key) :
    t.store.disk.contexts.get? (Disk.place key) = s.store.disk.contexts.get? (Disk.place key) :=
  h.kept fun hk => ((h.garbage key).mp hk).2.1 hr

theorem contains_iff (h : service.Collects s t removed) (key : ContextKey) :
    t.store.disk.contains key = true ↔ s.store.disk.contains key = true ∧ key ∉ removed := by
  simp only [Disk.contains, Tree.contains, h.records, mem_places]
  by_cases hk : key ∈ removed <;> simp [hk]

/-- What stays is reachable or counts as unbound. -/
theorem stays_iff (h : service.Collects s t removed) {key : ContextKey}
    (hc : s.store.disk.contains key = true) : t.store.disk.contains key = true ↔
      s.store.disk.Reaches service.root key ∨ key ∈ s.memory.unbound := by
  rw [h.contains_iff, h.garbage]
  simp only [hc, true_and, not_and, Classical.not_not]
  constructor
  · intro hstays
    by_cases hr : s.store.disk.Reaches service.root key
    · exact .inl hr
    · exact .inr (hstays hr)
  · rintro (hr | hu)
    · exact fun hnr => absurd hr hnr
    · exact fun _ => hu

/-- After a sweep nothing is left to remove. -/
theorem again (h : service.Collects s t removed) {u : Server} {rest : List ContextKey}
    (h' : service.Collects t u rest) : rest = [] := by
  apply List.eq_nil_iff_forall_not_mem.mpr
  intro key hk
  obtain ⟨hc, hnr, hnu⟩ := (h'.garbage key).mp hk
  have hbefore := ((h.contains_iff key).mp hc).1
  rcases (h.stays_iff hbefore).mp hc with hr | hu
  · exact hnr (hr.transfer fun k hk => h.kept_reachable hk)
  · exact hnu (h.unbound ▸ hu)

/-- From the root every name means what it meant before. -/
theorem resolve (h : service.Collects s t removed) (hs : s.AtRest) (hsound : s.Sound)
    (hw : s.store.Willing) (name : Name) :
    ∃ result s' t', (service.rootContext.resolve name).serve s = some (result, s') ∧
      (service.rootContext.resolve name).serve t = some (result, t') := by
  have hshows : s.Shows s.store.disk := ⟨rfl, hs.idle, hsound, hw.spares .load⟩
  have htshows : t.Shows t.store.disk := ⟨rfl, h.rest.idle, h.sound, h.willing.spares .load⟩
  obtain ⟨s', hs', _⟩ := service.rootContext.resolve_shows name hshows
  obtain ⟨t', ht', _⟩ := service.rootContext.resolve_shows name htshows
  have hload : ∀ k, s.store.disk.Reaches service.root k →
      t.store.disk.load k = s.store.disk.load k :=
    fun k hk => Disk.load_congr (h.kept_reachable hk)
  have hsame : t.store.disk.resolve service.rootContext.key name =
      s.store.disk.resolve service.rootContext.key name := Disk.resolve_congr hload .root name
  rw [hsame] at ht'
  exact ⟨_, s', t', hs', ht'⟩

end Service.Collects

/-- A sweep removes exactly the garbage: the contexts that the root does not lead to and that are
not held, by what was answered so far, to be bound later. -/
theorem Service.sweep_exact {service : Service} {history : History}
    (h : Reached (fun _ _ => false) (some service) s history) :
    ∃ removed t, service.sweep.serve s = some (.ok removed, t) ∧
      (removed.map Disk.place).Pairwise (fun a b => Bytes.le a b = true ∧ a ≠ b) ∧
      (∀ key, key ∈ removed ↔ s.store.disk.contains key = true ∧
        ¬ s.store.disk.Reaches service.root key ∧ ¬ history.Held key) ∧
      (∀ place, t.store.disk.contexts.get? place =
        if place ∈ removed.map Disk.place then none else s.store.disk.contexts.get? place) ∧
      (∀ name, ∃ result s' t',
        (service.rootContext.resolve name).serve s = some (result, s') ∧
        (service.rootContext.resolve name).serve t = some (result, t')) ∧
      ∃ u, service.sweep.serve t = some (.ok [], u) := by
  have hsettled := h.settled
  obtain ⟨removed, t, hcollects⟩ :=
    service.sweep_collects hsettled.rest hsettled.sound hsettled.faults
  obtain ⟨rest, u, hagain⟩ :=
    service.sweep_collects hcollects.rest hcollects.sound hcollects.willing
  cases hcollects.again hagain
  refine ⟨removed, t, hcollects.served, hcollects.ordered, fun key => ?_, hcollects.records,
    fun name => hcollects.resolve hsettled.rest hsettled.sound hsettled.faults name,
    u, hagain.served⟩
  rw [hcollects.garbage key, hsettled.held key]

/-- A client makes a context, and binds another one in it before it binds the first. -/
def Service.nested : List Task :=
  [.newContext, .call ⟨"NC1"⟩ (.bindNewContext (.single ⟨.ofId "b", Eq.refl true⟩))]

theorem Service.sweep_exact_nested : ∃ service s history,
    firstRun nested = some (service, s, history) ∧ history.Held ⟨"NC1"⟩ ∧
      ∃ removed t, service.sweep.serve s = some (.ok removed, t) ∧ ⟨"NC1"⟩ ∉ removed ∧
        ∃ u, service.sweep.serve t = some (.ok [], u) := by
  have hrun : (firstRun nested).any (fun p => p.2.1.memory.unbound.contains ⟨"NC1"⟩) = true := by
    decide +kernel
  obtain ⟨⟨service, s, history⟩, hrun, hunbound⟩ := (Option.any_eq_true _ _).mp hrun
  have hreached := Reached.firstRun hrun
  have hheld := (hreached.settled.held _).mp (List.contains_iff_mem.mp hunbound)
  obtain ⟨removed, t, hserve, _, hgarbage, _, _, hagain⟩ := Service.sweep_exact hreached
  exact ⟨service, s, history, hrun, hheld, removed, t, hserve,
    fun hm => ((hgarbage _).mp hm).2.2 hheld, hagain⟩

/-- A sweep leaves what it keeps as it was, and breaks no context that can be reached from the root:
each context that is bound there and had a record still has it. In a context that is only held by
the history, those stay that can be reached from the root in another way or are held themselves. -/
theorem Service.sweep_keeps {service : Service} {history : History}
    (h : Reached (fun _ _ => false) (some service) s history) :
    ∃ removed t, service.sweep.serve s = some (.ok removed, t) ∧
      ∀ key, t.store.disk.contains key = true →
        t.store.disk.contexts.get? (Disk.place key) =
          s.store.disk.contexts.get? (Disk.place key) ∧
        ∀ target ∈ t.store.disk.links key, s.store.disk.contains target = true →
          (s.store.disk.Reaches service.root key → t.store.disk.contains target = true) ∧
          (t.store.disk.contains target = true ↔
            s.store.disk.Reaches service.root target ∨ history.Held target) := by
  have hsettled := h.settled
  obtain ⟨removed, t, hcollects⟩ :=
    service.sweep_collects hsettled.rest hsettled.sound hsettled.faults
  refine ⟨removed, t, hcollects.served, fun key hc => ?_⟩
  have hkept := hcollects.kept ((hcollects.contains_iff key).mp hc).2
  refine ⟨hkept, fun target hm ht => ?_⟩
  have hstays := hcollects.stays_iff ht
  refine ⟨fun hr => hstays.mpr (.inl (.step hr ?_)), hstays.trans (or_congr_right ?_)⟩
  · exact Disk.links_congr hkept ▸ hm
  · exact hsettled.held target

theorem Service.sweep_keeps_nested : ∃ service s history,
    firstRun nested = some (service, s, history) ∧
      ∃ removed t, service.sweep.serve s = some (.ok removed, t) ∧
        t.store.disk.contains ⟨"NC1"⟩ = true ∧ t.store.disk.links ⟨"NC1"⟩ = [⟨"NC2"⟩] ∧
        (t.store.disk.contains ⟨"NC2"⟩ = true ↔
          s.store.disk.Reaches service.root ⟨"NC2"⟩ ∨ history.Held ⟨"NC2"⟩) := by
  have hrun : (firstRun nested).any (fun p => p.2.1.store.disk.contains ⟨"NC2"⟩ &&
      (p.1.sweep.serve p.2.1).any fun q => q.2.store.disk.contains ⟨"NC1"⟩ &&
        q.2.store.disk.links ⟨"NC1"⟩ == [⟨"NC2"⟩]) = true := by
    decide +kernel
  obtain ⟨⟨service, s, history⟩, hrun, hswept⟩ := (Option.any_eq_true _ _).mp hrun
  obtain ⟨hstored, hswept⟩ := Bool.and_eq_true_iff.mp hswept
  obtain ⟨q, hq, hleft⟩ := (Option.any_eq_true _ _).mp hswept
  obtain ⟨hc, hlinks⟩ := Bool.and_eq_true_iff.mp hleft
  obtain ⟨removed, t, hserve, hkept⟩ := Service.sweep_keeps (Reached.firstRun hrun)
  cases hq.symm.trans hserve
  have hlinks := beq_iff_eq.mp hlinks
  exact ⟨service, s, history, hrun, removed, t, hserve, hc, hlinks,
    ((hkept _ hc).2 _ (hlinks ▸ List.mem_singleton_self _) hstored).2⟩

/-- Not all that is bound in a kept context stays: a context that is bound only where nothing can be
reached goes, although the context that it is bound in is held and stays. -/
theorem Service.sweep_breaks_held : ¬ ∀ (service : Service) (s t : Server) (history : History)
    (removed : List ContextKey), Reached (fun _ _ => false) (some service) s history →
      service.sweep.serve s = some (.ok removed, t) →
      ∀ key, t.store.disk.contains key = true →
        ∀ target ∈ t.store.disk.links key, s.store.disk.contains target = true →
          t.store.disk.contains target = true := by
  intro h
  have hrun : (firstRun nested).any (fun p => p.2.1.store.disk.contains ⟨"NC2"⟩ &&
      (p.1.sweep.serve p.2.1).any fun q => q.2.store.disk.contains ⟨"NC1"⟩ &&
        (q.2.store.disk.links ⟨"NC1"⟩).contains ⟨"NC2"⟩ &&
        !q.2.store.disk.contains ⟨"NC2"⟩) = true := by
    decide +kernel
  obtain ⟨⟨service, s, history⟩, hrun, hswept⟩ := (Option.any_eq_true _ _).mp hrun
  have hreached := Reached.firstRun hrun
  obtain ⟨hstored, hswept⟩ := Bool.and_eq_true_iff.mp hswept
  obtain ⟨q, hq, hleft⟩ := (Option.any_eq_true _ _).mp hswept
  obtain ⟨hleft, hgone⟩ := Bool.and_eq_true_iff.mp hleft
  obtain ⟨hc, hbound⟩ := Bool.and_eq_true_iff.mp hleft
  obtain ⟨removed, t, hcollects⟩ := service.sweep_collects hreached.settled.rest
    hreached.settled.sound hreached.settled.faults
  cases hq.symm.trans hcollects.served
  have hkept := h service s t history removed hreached hcollects.served ⟨"NC1"⟩ hc ⟨"NC2"⟩
    (List.contains_iff_mem.mp hbound) hstored
  rw [hkept] at hgone
  cases hgone

end Naming
