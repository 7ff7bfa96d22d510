import Naming.Proofs.Coherence

namespace Naming

namespace Action

theorem performs_settle (key : ContextKey) (kept : Option BindingSet) (s : Server) :
    ∃ t, perform? (.settle key kept) s = some ((), t) ∧ t.store = s.store ∧
      t.memory.locks = s.memory.locks ∧ t.memory.gate = s.memory.gate ∧
      ∀ other bindings, t.memory.resident.get? other = some bindings →
        other = key ∧ kept = some bindings ∨
          other ≠ key ∧ s.memory.resident.get? other = some bindings := by
  refine ⟨_, rfl, rfl, rfl, rfl, fun other bindings hb => ?_⟩
  dsimp only at hb
  split at hb
  · rcases Resident.get?_insert hb with ⟨hkey, hsame⟩ | hother
    · exact .inl ⟨hkey, congrArg some hsame.symm⟩
    · exact .inr hother
  · rw [Resident.get?_remove] at hb
    split at hb
    · cases hb
    · rename_i hne
      exact .inr ⟨hne, hb⟩

theorem performs_save (key : ContextKey) (bindings : BindingSet) (s : Server) :
    ∃ t, perform? (.save key bindings) s = some ((s.store.save key bindings).1, t) ∧
      t.store = (s.store.save key bindings).2 ∧ t.memory = s.memory := by
  simp only [perform?]
  obtain ⟨result, store⟩ := s.store.save key bindings
  cases result <;> exact ⟨_, rfl, rfl, rfl⟩

/-- The parts of a server that steps are about. -/
inductive Part where
  | locks
  | gate
  | resident
  | unbound
  | store
deriving DecidableEq

/-- The only part of the server that a step changes, but for its events. -/
def part : Action → Part
  | referLock _ | enterLock _ _ | leaveLock _ _ | releaseIdle _ => .locks
  | enterGate _ | leaveGate _ => .gate
  | settle _ _ => .resident
  | markUnbound _ | clearUnbound _ => .unbound
  | _ => .store

/-- Two servers that differ in one part and in their events only. -/
structure Part.Differ (p : Part) (s t : Server) : Prop where
  locks : p ≠ .locks → t.memory.locks = s.memory.locks
  gate : p ≠ .gate → t.memory.gate = s.memory.gate
  resident : p ≠ .resident → t.memory.resident = s.memory.resident
  unbound : p ≠ .unbound → t.memory.unbound = s.memory.unbound
  store : p ≠ .store → t.store = s.store

variable {a : Action} {s t : Server} {r : a.Result}

theorem performs_part (hp : a.perform? s = some (r, t)) : a.part.Differ s t := by
  have hmemory : t.memory = s.memory → Part.Differ .store s t := fun hm =>
    ⟨fun _ => hm ▸ rfl, fun _ => hm ▸ rfl, fun _ => hm ▸ rfl, fun _ => hm ▸ rfl,
      fun hne => absurd rfl hne⟩
  cases a with
  | save key bindings =>
    obtain ⟨u, hu, _, hm⟩ := performs_save key bindings s
    cases hu.symm.trans hp
    exact hmemory hm
  | allocate =>
    simp only [perform?] at hp
    split at hp <;> cases hp <;> exact hmemory rfl
  | enterLock id access =>
    obtain ⟨locks, _, he⟩ := Option.map_eq_some_iff.mp hp
    cases he
    exact ⟨fun hne => absurd rfl hne, fun _ => rfl, fun _ => rfl, fun _ => rfl, fun _ => rfl⟩
  | enterGate access =>
    obtain ⟨gate, _, he⟩ := Option.map_eq_some_iff.mp hp
    cases he
    exact ⟨fun _ => rfl, fun hne => absurd rfl hne, fun _ => rfl, fun _ => rfl, fun _ => rfl⟩
  | referLock key | leaveLock id access | releaseIdle key =>
    cases hp
    exact ⟨fun hne => absurd rfl hne, fun _ => rfl, fun _ => rfl, fun _ => rfl, fun _ => rfl⟩
  | leaveGate access =>
    cases hp
    exact ⟨fun _ => rfl, fun hne => absurd rfl hne, fun _ => rfl, fun _ => rfl, fun _ => rfl⟩
  | settle key kept =>
    cases hp
    exact ⟨fun _ => rfl, fun _ => rfl, fun hne => absurd rfl hne, fun _ => rfl, fun _ => rfl⟩
  | markUnbound key | clearUnbound key =>
    cases hp
    exact ⟨fun _ => rfl, fun _ => rfl, fun _ => rfl, fun hne => absurd rfl hne, fun _ => rfl⟩
  | resident key | load key | contains key | remove key | keys | root | setRoot key
  | isUnbound key | census | note event =>
    cases hp
    exact hmemory rfl

theorem performs_save_cases {key : ContextKey} {bindings : BindingSet}
    {r : Except StorageFailure Unit} (hp : perform? (.save key bindings) s = some (r, t)) :
    (r = .ok () ∧ s.store.disk.save key bindings = .ok t.store.disk) ∨
      ∃ failure, r = .error failure ∧ t.store.disk = s.store.disk := by
  obtain ⟨u, hu, hstored, _⟩ := performs_save key bindings s
  cases hu.symm.trans hp
  rcases s.store.save_cases key bindings with ⟨failure, store, hc, hd⟩ | ⟨store, hc, hd⟩
  · rw [hc] at hstored ⊢
    exact .inr ⟨failure, rfl, hstored ▸ hd⟩
  · rw [hc] at hstored ⊢
    exact .inl ⟨rfl, hstored ▸ hd⟩

theorem performs_remove_cases {key : ContextKey} {r : Except StorageFailure Bool}
    (hp : perform? (.remove key) s = some (r, t)) :
    (r = .ok (s.store.disk.contains key) ∧ t.store.disk = s.store.disk.remove key) ∨
      ∃ failure, r = .error failure ∧ t.store.disk = s.store.disk ∧ ¬ s.store.Willing := by
  rcases s.store.remove_cases key with ⟨failure, store, hc, hd⟩ | ⟨store, hc, hd⟩
  · simp only [perform?, hc] at hp
    cases hp
    refine .inr ⟨failure, rfl, hd, fun hwilling => ?_⟩
    obtain ⟨_, hspared⟩ := Store.remove_spared (hwilling.spares .remove) key
    cases hc.symm.trans hspared
  · simp only [perform?, hc] at hp
    cases hp
    exact .inl ⟨rfl, hd⟩

theorem performs_allocate_cases {r : Except StorageFailure ContextKey}
    (hp : perform? .allocate s = some (r, t)) :
    (∃ key, r = .ok key ∧ s.store.disk.allocate = .ok (key, t.store.disk)) ∨
      ∃ failure, r = .error failure ∧ t.store.disk = s.store.disk := by
  simp only [perform?] at hp
  rcases s.store.allocate_cases with ⟨failure, store, hc, hd⟩ | ⟨key, store, hc, hd⟩
  · rw [hc] at hp
    cases hp
    exact .inr ⟨failure, rfl, hd⟩
  · rw [hc] at hp
    cases hp
    exact .inl ⟨key, rfl, hd⟩

/-- What a step does to the disk: nothing, or what it is for. -/
inductive Alters (s t : Server) : (a : Action) → a.Result → Prop
  | nothing {a : Action} {r : a.Result} (same : t.store.disk = s.store.disk) : Alters s t a r
  | saved {key : ContextKey} {bindings : BindingSet}
      (saved : s.store.disk.save key bindings = .ok t.store.disk) :
      Alters s t (.save key bindings) (.ok ())
  | removed {key : ContextKey} (removed : t.store.disk = s.store.disk.remove key) :
      Alters s t (.remove key) (.ok (s.store.disk.contains key))
  | allocated {key : ContextKey} (allocated : s.store.disk.allocate = .ok (key, t.store.disk)) :
      Alters s t .allocate (.ok key)
  | rooted {key : ContextKey} (rooted : t.store.disk = s.store.disk.setRoot key) :
      Alters s t (.setRoot key) (.ok ())

theorem performs_alters (hp : a.perform? s = some (r, t)) : Alters s t a r := by
  have hstore : a.part ≠ .store → Alters s t a r := fun hne =>
    .nothing (by rw [(performs_part hp).store hne])
  cases a with
  | save key bindings =>
    rcases performs_save_cases hp with ⟨rfl, hd⟩ | ⟨_, _, hd⟩
    · exact .saved hd
    · exact .nothing hd
  | remove key =>
    rcases performs_remove_cases hp with ⟨rfl, hd⟩ | ⟨_, _, hd, _⟩
    · exact .removed hd
    · exact .nothing hd
  | allocate =>
    rcases performs_allocate_cases hp with ⟨_, rfl, hd⟩ | ⟨_, _, hd⟩
    · exact .allocated hd
    · exact .nothing hd
  | setRoot key =>
    rcases s.store.setRoot_cases key with ⟨failure, store, hc, hd⟩ | ⟨store, hc, hd⟩
    · simp only [perform?, hc] at hp
      cases hp
      exact .nothing hd
    · simp only [perform?, hc] at hp
      cases hp
      exact .rooted hd
  | load key =>
    cases hp
    exact .nothing (s.store.load_disk key)
  | contains key =>
    cases hp
    exact .nothing (s.store.contains_disk key)
  | keys =>
    cases hp
    exact .nothing s.store.keys_disk
  | resident key | root | isUnbound key | census | note event =>
    cases hp
    exact .nothing rfl
  | _ => exact hstore fun h => by cases h

/-- What a step does to the records. -/
inductive Writes (s t : Server) : Action → Prop
  | nothing {a : Action} (same : t.store.disk.contexts = s.store.disk.contexts) : Writes s t a
  | saved {key : ContextKey} {bindings : BindingSet}
      (saved : s.store.disk.save key bindings = .ok t.store.disk) : Writes s t (.save key bindings)
  | removed {key : ContextKey} (removed : t.store.disk = s.store.disk.remove key) :
      Writes s t (.remove key)

theorem performs_writes (hp : a.perform? s = some (r, t)) : a.Writes s t := by
  cases performs_alters hp with
  | nothing same => exact .nothing (congrArg Disk.contexts same)
  | saved saved => exact .saved saved
  | removed removed => exact .removed removed
  | allocated allocated =>
    obtain ⟨_, _, _, _, hcontexts⟩ := Disk.allocate_ok allocated
    exact .nothing hcontexts
  | rooted rooted =>
    have hcontexts := congrArg Disk.contexts rooted
    exact .nothing hcontexts

end Action

end Naming
