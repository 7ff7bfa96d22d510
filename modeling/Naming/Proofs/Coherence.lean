import Naming.Proofs.Activations
import Naming.Proofs.Stores

namespace Naming

variable {α β : Type}

namespace Resident

variable {key other : ContextKey} {bindings found : BindingSet}

theorem get?_remove (r : Resident) (key other : ContextKey) :
    (r.remove key).get? other = if other = key then none else r.get? other := by
  unfold remove
  split
  · exact lookup_filter_ne _ _ _
  · rename_i hnone
    split
    · rename_i heq
      rw [heq]
      simpa using hnone
    · rfl

/-- What is kept after an eviction was kept before. -/
theorem get?_evict {capacity : Nat} {entries : List (ContextKey × BindingSet)}
    {order : List ContextKey} (h : (evict capacity entries order).get? key = some found) :
    entries.lookup key = some found := by
  induction order generalizing entries with
  | nil => exact h
  | cons oldest order ih =>
    unfold evict at h
    split at h
    · have hf := ih h
      rw [lookup_filter_ne] at hf
      split at hf
      · cases hf
      · exact hf
    · exact h

theorem get?_insert {r : Resident} {capacity : Nat}
    (h : (r.insert capacity key bindings).get? other = some found) :
    (other = key ∧ found = bindings) ∨ (other ≠ key ∧ r.get? other = some found) := by
  have hf := get?_evict h
  rw [lookup_cons_if, lookup_filter_ne] at hf
  split at hf
  · rename_i hk
    exact .inl ⟨hk, (Option.some.inj hf).symm⟩
  · rename_i hk
    exact .inr ⟨hk, hf⟩

end Resident

/-- No record on the disk is damaged, and what is kept in memory is what the records hold. -/
structure Server.Sound (s : Server) : Prop where
  disk : s.store.disk.Sound
  resident : ∀ key bindings, s.memory.resident.get? key = some bindings →
    s.store.disk.load key = .ok (some bindings)

namespace Active

/-- What holds in the middle of a request on a sound server: the context in use and its record
differ only if the context counts as changed or removed. -/
structure InFlight (c : Active) (s : Server) : Prop where
  disk : s.store.disk.Sound
  regular : c.bindings.Regular
  stored : c.dirty = false → c.removed = false →
    s.store.disk.load c.key = .ok (some c.bindings)
  others : ∀ key bindings, key ≠ c.key → s.memory.resident.get? key = some bindings →
    s.store.disk.load key = .ok (some bindings)

/-- Uses that reach the store only through the context in use, and that change its bindings only
to regular ones. -/
inductive Proper : {α : Type} → Use α → Prop
  | pure {α : Type} (a : α) : Proper (Pure.pure a : Use α)
  | throw {α : Type} (failure : Failure) : Proper (MonadExcept.throw failure : Use α)
  | bind {α β : Type} {use : Use α} {f : α → Use β} (first : Proper use)
      (next : ∀ a, Proper (f a)) : Proper (use >>= f)
  | get : Proper (MonadState.get : Use Active)
  | contains (key : ContextKey) : Proper (perform (.contains key))
  | ofStorage {α : Type} (result : Except StorageFailure α) : Proper (Active.ofStorage result)
  | edit {α : Type} {change : BindingSet → Except Failure (α × BindingSet)}
      (regular : ∀ s a t, s.Regular → change s = .ok (a, t) → t.Regular) :
      Proper (Active.edit change)
  | commit : Proper commit
  | remove : Proper remove

theorem proper_look (view : BindingSet → Except Failure α) : Proper (look view) := by
  refine .bind .get fun c => ?_
  cases h : view c.bindings with
  | error failure => simpa only [h] using .throw failure
  | ok a => simpa only [h] using .pure a

theorem InFlight.congr {c : Active} {s t : Server} (h : InFlight c s)
    (hd : t.store.disk = s.store.disk) (hm : t.memory = s.memory) : InFlight c t :=
  ⟨hd ▸ h.disk, h.regular, hd ▸ h.stored, hd ▸ hm ▸ h.others⟩

/-- What a use leaves alone, and what it keeps. -/
structure Follows (c : Active) (s : Server) (c' : Active) (s' : Server) : Prop where
  key : c'.key = c.key
  lock : c'.lock = c.lock
  access : c'.access = c.access
  memory : s'.memory = s.memory
  inFlight : InFlight c s → InFlight c' s'

theorem Follows.refl (c : Active) (s : Server) : Follows c s c s := ⟨rfl, rfl, rfl, rfl, id⟩

theorem Follows.trans {a b c : Active} {s t u : Server} (h : Follows a s b t)
    (h' : Follows b t c u) : Follows a s c u :=
  ⟨h'.key.trans h.key, h'.lock.trans h.lock, h'.access.trans h.access, h'.memory.trans h.memory,
    h'.inFlight ∘ h.inFlight⟩

theorem follows_edited (c : Active) (s : Server) {bindings : BindingSet}
    (h : c.bindings.Regular → bindings.Regular) :
    Follows c s { c with dirty := true, bindings := bindings } s :=
  ⟨rfl, rfl, rfl, rfl, fun hi =>
    ⟨hi.disk, h hi.regular, (fun hd => by cases hd), hi.others⟩⟩

theorem follows_called (c : Active) (s : Server) {store : Store} {events : List Log.Event}
    (h : store.disk = s.store.disk) : Follows c s c ⟨store, s.memory, events⟩ :=
  ⟨rfl, rfl, rfl, rfl, fun hi => hi.congr h rfl⟩

theorem follows_saved (c : Active) (s : Server) {store : Store} {events : List Log.Event}
    (h : s.store.disk.save c.key c.bindings = .ok store.disk) :
    Follows c s { c with dirty := false } ⟨store, s.memory, events⟩ := by
  refine ⟨rfl, rfl, rfl, rfl, fun hi => ⟨hi.disk.save hi.regular h, hi.regular, ?_, ?_⟩⟩
  · intro _ _
    rw [← hi.regular.eq_ofList]
    exact Disk.load_save h
  · intro key bindings hk hr
    exact (Disk.load_save_other h hk).trans (hi.others key bindings hk hr)

theorem follows_removed (c : Active) (s : Server) {store : Store} {events : List Log.Event}
    (h : store.disk = s.store.disk.remove c.key) :
    Follows c s { c with removed := true } ⟨store, s.memory, events⟩ := by
  refine ⟨rfl, rfl, rfl, rfl, fun hi => ⟨h ▸ hi.disk.remove _, hi.regular, ?_, ?_⟩⟩
  · intro _ hr
    cases hr
  · intro key bindings hk hr
    have hd : (store.disk).load key = s.store.disk.load key := h ▸ Disk.load_remove_other hk
    exact hd.trans (hi.others key bindings hk hr)

/-- A proper use never waits, and leaves everything but its own context as it is. -/
theorem Proper.plays {use : Use α} (h : Proper use) (c : Active) (s : Server) :
    ∃ result c' s', play use c s = some ((result, c'), s') ∧ Follows c s c' s' := by
  induction h generalizing c s with
  | pure a => exact ⟨_, _, _, play_pure a c s, .refl c s⟩
  | throw failure => exact ⟨_, _, _, play_throw failure c s, .refl c s⟩
  | bind first next ihFirst ihNext =>
    obtain ⟨result, b, t, hp, hf⟩ := ihFirst c s
    rw [play_bind, hp]
    cases result with
    | error failure => exact ⟨_, _, _, rfl, hf⟩
    | ok a =>
      obtain ⟨result, c', s', hp', hf'⟩ := ihNext a b t
      exact ⟨result, c', s', hp', hf.trans hf'⟩
  | get => exact ⟨_, _, _, play_get c s, .refl c s⟩
  | contains key =>
    exact ⟨_, _, _, play_contains key c s, follows_called c s (s.store.contains_disk key)⟩
  | ofStorage result => exact ⟨_, _, _, play_ofStorage result c s, .refl c s⟩
  | edit regular =>
    rename_i change
    rw [play_edit]
    cases c.demanded "modify" with
    | error failure => exact ⟨_, _, _, rfl, .refl c s⟩
    | ok _ =>
      cases hc : change c.bindings with
      -- a set counts as changed even when the change fails, and so is not kept
      | error failure => exact ⟨_, _, _, rfl, follows_edited c s id⟩
      | ok r => exact ⟨_, _, _, rfl, follows_edited c s fun hb => regular _ _ _ hb hc⟩
  | commit =>
    rw [play_commit]
    cases c.demanded "commit" with
    | error failure => exact ⟨_, _, _, rfl, .refl c s⟩
    | ok _ =>
      rcases s.store.save_cases c.key c.bindings with ⟨failure, store, hc, hd⟩ | ⟨store, hc, hd⟩
      · rw [hc]
        exact ⟨_, _, _, rfl, follows_called c s hd⟩
      · rw [hc]
        exact ⟨_, _, _, rfl, follows_saved c s hd⟩
  | remove =>
    rw [play_remove]
    cases c.demanded "remove" with
    | error failure => exact ⟨_, _, _, rfl, .refl c s⟩
    | ok _ =>
      rcases s.store.remove_cases c.key with ⟨failure, store, hc, hd⟩ | ⟨store, hc, hd⟩
      · rw [hc]
        exact ⟨_, _, _, rfl, follows_called c s hd⟩
      · rw [hc]
        exact ⟨_, _, _, rfl, follows_removed c s hd⟩

theorem Proper.follows {use : Use α} (h : Proper use) {c c' : Active} {s s' : Server}
    {result : Except Failure α} (hp : play use c s = some ((result, c'), s')) :
    Follows c s c' s' := by
  obtain ⟨_, _, _, hq, hf⟩ := h.plays c s
  rw [hp] at hq
  cases hq
  exact hf

/-- What is kept in memory after a release was kept before, or is the context that is released. -/
theorem get?_keeps {c : Active} {retention : Retention} {resident : Resident} {key : ContextKey}
    {bindings : BindingSet} (h : (c.keeps retention resident).get? key = some bindings) :
    (key = c.key ∧ bindings = c.bindings ∧ c.dirty = false ∧ c.removed = false) ∨
      (key ≠ c.key ∧ resident.get? key = some bindings) := by
  unfold Active.keeps at h
  split at h
  · rename_i hclean
    split at hclean
    · cases hclean
    · rename_i hunchanged
      simp only [Bool.or_eq_true, not_or, Bool.not_eq_true] at hunchanged
      cases hclean
      rcases Resident.get?_insert h with ⟨hk, hb⟩ | hother
      · exact .inl ⟨hk, hb, hunchanged⟩
      · exact .inr hother
  · rw [Resident.get?_remove] at h
    split at h
    · cases h
    · rename_i hne
      exact .inr ⟨hne, h⟩

theorem InFlight.released {c : Active} {s : Server} (h : InFlight c s) : (c.released s).Sound := by
  refine ⟨h.disk, fun key bindings hk => ?_⟩
  rcases get?_keeps hk with ⟨rfl, rfl, hdirty, hremoved⟩ | ⟨hne, hr⟩
  · exact h.stored hdirty hremoved
  · exact h.others key bindings hne hr

end Active

namespace Server

theorem looked_disk (s : Server) (key : ContextKey) : (s.looked key).disk = s.store.disk := by
  unfold looked
  split
  · rfl
  · exact s.store.load_disk key

/-- On a sound server an activation finds what the record holds. -/
theorem Sound.found {s : Server} (h : s.Sound) {key : ContextKey} {intent : Intent}
    {bindings : BindingSet} {dirty : Bool} (hf : s.found key intent = .ok (bindings, dirty)) :
    bindings.Regular ∧ (dirty = false → s.store.disk.load key = .ok (some bindings)) := by
  unfold Server.found at hf
  split at hf
  · rename_i found hr
    cases hf
    have hl := h.resident key bindings hr
    exact ⟨h.disk.regular hl, fun _ => hl⟩
  · split at hf
    · cases hf
    · rename_i hl
      cases hf
      have hl := Store.load_ok hl
      exact ⟨h.disk.regular hl, fun _ => hl⟩
    · cases hf
      exact ⟨BindingSet.regular_empty, fun hd => by cases hd⟩
    · cases hf

/-- What a request keeps that has the server for itself. -/
structure Kept (s t : Server) : Prop where
  locks : t.memory.locks.Idle
  gate : t.memory.gate = s.memory.gate
  sound : s.Sound → t.Sound

end Server

namespace Active

theorem during_serves {use : Use α} (h : Proper use) (key : ContextKey) (operation : Operation)
    (intent : Intent) {s : Server} (hs : s.memory.locks.Idle) :
    ∃ result t, (during key operation intent use).serve s = some (result, t) ∧ s.Kept t ∧
      t.memory.unbound = s.memory.unbound := by
  rw [serve_during key operation intent use hs]
  cases hf : s.found key intent with
  | error failure =>
    refine ⟨_, _, rfl, ⟨rfl, rfl, fun hsound => ⟨?_, ?_⟩⟩, rfl⟩
    · exact (s.looked_disk key).symm ▸ hsound.disk
    · intro k bindings hk
      exact (s.looked_disk key).symm ▸ hsound.resident k bindings hk
  | ok found =>
    obtain ⟨bindings, dirty⟩ := found
    obtain ⟨result, c, t, hp, hfollows⟩ := h.plays
      ⟨key, operation, bindings, dirty, false, s.memory.locks.fresh, accessFor operation intent⟩
      ((holding s key (accessFor operation intent)).note
        (event "Activated context" key operation [("bindings", .number bindings.size)]))
    refine ⟨result, c.released t,
      congrArg (Option.map fun p => (p.1.1, p.1.2.released p.2)) hp, ⟨?_, ?_,
      fun hsound => (hfollows.inFlight ?_).released⟩, ?_⟩
    · simp only [released, hfollows.memory, hfollows.key, hfollows.lock, hfollows.access, holding,
        Server.note]
      exact LockTable.idle_release_single _ _ _
    · simp only [released, hfollows.memory, holding, Server.note]
    · obtain ⟨hregular, hstored⟩ := hsound.found hf
      have hd : (s.looked key).disk = s.store.disk := s.looked_disk key
      refine ⟨hd.symm ▸ hsound.disk, hregular, fun hclean _ => ?_, fun k b _ hk => ?_⟩
      · exact hd.symm ▸ hstored hclean
      · exact hd.symm ▸ hsound.resident k b hk
    · simp only [released, hfollows.memory, holding, Server.note]

end Active

/-- The bindings that an activation finds when nothing is kept in memory. -/
def Disk.found (d : Disk) (key : ContextKey) (intent : Intent) :
    Except Failure (BindingSet × Bool) :=
  match d.load key, intent with
  | .error failure, _ => .error (.ofStorage failure)
  | .ok (some bindings), _ => .ok (bindings, false)
  | .ok none, .create => .ok (.empty, true)
  | .ok none, .existing => .error (.noContext key)

namespace Server

variable {s t : Server}

/-- What is kept in memory makes no difference to what an activation finds. -/
theorem Sound.found_eq (h : s.Sound) (hl : s.store.Spares .load) (key : ContextKey)
    (intent : Intent) : s.found key intent = s.store.disk.found key intent := by
  unfold Server.found Disk.found
  cases hr : s.memory.resident.get? key with
  | some bindings => simp only [h.resident key bindings hr]
  | none =>
    have hload := Store.load_spared hl key
    generalize (s.store.load key).1 = loaded at hload ⊢
    cases hload
    rfl

/-- Two servers that differ in nothing but what is kept in memory and for how long. -/
structure Alike (s t : Server) : Prop where
  store : s.store.Alike t.store
  locks : s.memory.locks = t.memory.locks
  gate : s.memory.gate = t.memory.gate
  unbound : s.memory.unbound = t.memory.unbound

theorem looked_alike (s : Server) (key : ContextKey) : (s.looked key).Alike s.store := by
  unfold looked
  split
  · exact .refl _
  · exact .load _ _

end Server

namespace Active

/-- A proper use does the same on stores that are alike. -/
theorem Proper.alike {use : Use α} (h : Proper use) {c : Active} {s t : Server}
    (hst : s.store.Alike t.store) : ∃ result c' s' t', play use c s = some ((result, c'), s') ∧
      play use c t = some ((result, c'), t') ∧ s'.store.Alike t'.store := by
  induction h generalizing c s t with
  | pure a => exact ⟨_, _, _, _, play_pure a c s, play_pure a c t, hst⟩
  | throw failure => exact ⟨_, _, _, _, play_throw failure c s, play_throw failure c t, hst⟩
  | bind first next ihFirst ihNext =>
    obtain ⟨result, b, s', t', hs, ht, hst'⟩ := ihFirst (c := c) hst
    rw [play_bind, play_bind, hs, ht]
    cases result with
    | error failure => exact ⟨_, _, _, _, rfl, rfl, hst'⟩
    | ok a => exact ihNext a hst'
  | get => exact ⟨_, _, _, _, play_get c s, play_get c t, hst⟩
  | contains key =>
    obtain ⟨result, u, v, hu, hv, hst'⟩ := hst.contains key
    rw [play_contains, play_contains, hu, hv]
    exact ⟨_, _, _, _, rfl, rfl, hst'⟩
  | ofStorage result =>
    exact ⟨_, _, _, _, play_ofStorage result c s, play_ofStorage result c t, hst⟩
  | edit regular =>
    rename_i change
    rw [play_edit, play_edit]
    cases c.demanded "modify" with
    | error failure => exact ⟨_, _, _, _, rfl, rfl, hst⟩
    | ok _ =>
      cases change c.bindings with
      | error failure => exact ⟨_, _, _, _, rfl, rfl, hst⟩
      | ok r => exact ⟨_, _, _, _, rfl, rfl, hst⟩
  | commit =>
    rw [play_commit, play_commit]
    cases c.demanded "commit" with
    | error failure => exact ⟨_, _, _, _, rfl, rfl, hst⟩
    | ok _ =>
      obtain ⟨result, u, v, hu, hv, hst'⟩ := hst.save c.key c.bindings
      rw [hu, hv]
      cases result with
      | error failure => exact ⟨_, _, _, _, rfl, rfl, hst'⟩
      | ok _ => exact ⟨_, _, _, _, rfl, rfl, hst'⟩
  | remove =>
    rw [play_remove, play_remove]
    cases c.demanded "remove" with
    | error failure => exact ⟨_, _, _, _, rfl, rfl, hst⟩
    | ok _ =>
      obtain ⟨result, u, v, hu, hv, hst'⟩ := hst.remove c.key
      rw [hu, hv]
      cases result with
      | error failure => exact ⟨_, _, _, _, rfl, rfl, hst'⟩
      | ok _ => exact ⟨_, _, _, _, rfl, rfl, hst'⟩

/-- An activation on servers that are alike has the same outcome, and leaves them alike. -/
theorem during_alike {use : Use α} (h : Proper use) (key : ContextKey) (operation : Operation)
    (intent : Intent) {s t : Server} (hst : s.Alike t) (hi : s.memory.locks.Idle) (hs : s.Sound)
    (ht : t.Sound) (hl : s.store.Spares .load) :
    ∃ result s' t', (during key operation intent use).serve s = some (result, s') ∧
      (during key operation intent use).serve t = some (result, t') ∧ s'.Alike t' := by
  have hlooked : (s.looked key).Alike (t.looked key) :=
    (s.looked_alike key).trans (hst.store.trans (t.looked_alike key).symm)
  have hl' : t.store.Spares .load := fun n => hst.store.fails ▸ hl n
  rw [serve_during key operation intent use hi,
    serve_during key operation intent use (hst.locks ▸ hi), hs.found_eq hl, ht.found_eq hl',
    hst.store.disk]
  cases t.store.disk.found key intent with
  | error failure =>
    refine ⟨_, _, _, rfl, rfl, hlooked, ?_, hst.gate, hst.unbound⟩
    simp only [hst.locks]
  | ok found =>
    obtain ⟨bindings, dirty⟩ := found
    rw [← hst.locks]
    obtain ⟨result, c, s', t', hp, hq, hstore⟩ := h.alike
      (c := ⟨key, operation, bindings, dirty, false, s.memory.locks.fresh,
        accessFor operation intent⟩)
      (s := (holding s key (accessFor operation intent)).note
        (event "Activated context" key operation [("bindings", .number bindings.size)]))
      (t := (holding t key (accessFor operation intent)).note
        (event "Activated context" key operation [("bindings", .number bindings.size)]))
      hlooked
    refine ⟨result, c.released s', c.released t',
      congrArg (Option.map fun p => (p.1.1, p.1.2.released p.2)) hp,
      congrArg (Option.map fun p => (p.1.1, p.1.2.released p.2)) hq, hstore, ?_, ?_, ?_⟩
    all_goals
      simp only [released, (h.follows hp).memory, (h.follows hq).memory, holding, Server.note,
        hst.locks, hst.gate, hst.unbound]

end Active

end Naming
