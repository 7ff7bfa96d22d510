import Naming.Proofs.Disks
import Naming.Store

namespace Naming

variable {α : Type} {s t : Store} {kind other : StoreCall} {key : ContextKey}

theorem CallCount.get_tick (c : CallCount) (kind other : StoreCall) :
    (c.tick kind).get other = if other = kind then c.get other + 1 else c.get other := by
  cases kind <;> cases other <;> simp [tick, get]

namespace Store

/-- A call of this kind is never refused. -/
def Spares (s : Store) (kind : StoreCall) : Prop := ∀ n, s.faults.fails kind n = false

/-- A disk that refuses no call. -/
def Willing (s : Store) : Prop := s.faults.fails = fun _ _ => false

theorem Willing.spares (h : s.Willing) (kind : StoreCall) : s.Spares kind :=
  fun n => by rw [h]

theorem call_faults (s : Store) (kind : StoreCall)
    (body : Disk → Except StorageFailure (α × Disk)) :
    (s.call kind body).2.faults = { s.faults with made := s.faults.made.tick kind } := by
  unfold call
  split
  · rfl
  · cases body s.disk <;> rfl

theorem call_fails (s : Store) (kind : StoreCall)
    (body : Disk → Except StorageFailure (α × Disk)) :
    (s.call kind body).2.faults.fails = s.faults.fails := by
  rw [call_faults]

/-- The same calls are to fail, and none that was made is forgotten. -/
structure Onward (s t : Store) : Prop where
  fails : t.faults.fails = s.faults.fails
  made : ∀ kind, s.faults.made.get kind ≤ t.faults.made.get kind

theorem Onward.refl (s : Store) : s.Onward s := ⟨rfl, fun _ => Nat.le_refl _⟩

theorem Onward.trans {u : Store} (h : s.Onward t) (h' : t.Onward u) : s.Onward u :=
  ⟨h'.fails.trans h.fails, fun kind => Nat.le_trans (h.made kind) (h'.made kind)⟩

theorem call_onward (s : Store) (kind : StoreCall)
    (body : Disk → Except StorageFailure (α × Disk)) : s.Onward (s.call kind body).2 := by
  refine ⟨s.call_fails kind body, fun other => ?_⟩
  rw [call_faults, CallCount.get_tick]
  split
  · exact Nat.le_succ _
  · exact Nat.le_refl _

/-- Some call of this kind was refused on the way from one store to another. -/
def Refused (s t : Store) (kind : StoreCall) : Prop :=
  ∃ n, s.faults.made.get kind ≤ n ∧ n < t.faults.made.get kind ∧ s.faults.fails kind n = true

theorem Refused.earlier {u : Store} (h : t.Refused u kind) (hst : s.Onward t) :
    s.Refused u kind := by
  obtain ⟨n, hle, hlt, hn⟩ := h
  exact ⟨n, Nat.le_trans (hst.made kind) hle, hlt, hst.fails ▸ hn⟩

theorem Refused.later {u : Store} (h : s.Refused t kind) (htu : t.Onward u) :
    s.Refused u kind := by
  obtain ⟨n, hle, hlt, hn⟩ := h
  exact ⟨n, hle, Nat.lt_of_lt_of_le hlt (htu.made kind), hn⟩

theorem Willing.not_refused (h : s.Willing) : ¬ s.Refused t kind := by
  rintro ⟨n, _, _, hn⟩
  rw [h] at hn
  cases hn

/-- A call reports a failure and leaves the disk alone, or does on the disk what it is for. -/
theorem call_cases (s : Store) (kind : StoreCall)
    (body : Disk → Except StorageFailure (α × Disk)) :
    (∃ failure u, s.call kind body = (.error failure, u) ∧ u.disk = s.disk) ∨
      ∃ a u, s.call kind body = (.ok a, u) ∧ body s.disk = .ok (a, u.disk) := by
  unfold call
  split
  · exact .inl ⟨_, _, rfl, rfl⟩
  · cases h : body s.disk with
    | error failure => exact .inl ⟨_, _, rfl, rfl⟩
    | ok r => exact .inr ⟨r.1, _, rfl, rfl⟩

theorem call_spared (h : s.Spares kind) (body : Disk → Except StorageFailure (α × Disk)) :
    s.call kind body =
      let faults := { s.faults with made := s.faults.made.tick kind }
      match body s.disk with
      | .error failure => (.error failure, ⟨s.disk, faults⟩)
      | .ok (a, d) => (.ok a, ⟨d, faults⟩) :=
  if_neg (by simp [h (s.faults.made.get kind)])

theorem map_ok {β ε : Type} {r : Except ε α} {f : α → β} {b : β}
    (h : r.map f = .ok b) : ∃ a, r = .ok a ∧ f a = b := by
  cases r with
  | error failure => cases h
  | ok a => exact ⟨a, rfl, Except.ok.inj h⟩

theorem load_cases (s : Store) (key : ContextKey) :
    (∃ failure u, s.load key = (.error failure, u) ∧ u.disk = s.disk) ∨
      ∃ r u, s.load key = (.ok r, u) ∧ s.disk.load key = .ok r ∧ u.disk = s.disk := by
  rcases s.call_cases .load fun d => (d.load key).map (·, d) with h | ⟨r, u, hc, hb⟩
  · exact .inl h
  · obtain ⟨_, hl, he⟩ := map_ok hb
    obtain ⟨rfl, hd⟩ := Prod.mk.inj he
    exact .inr ⟨_, u, hc, hl, hd.symm⟩

theorem load_disk (s : Store) (key : ContextKey) : (s.load key).2.disk = s.disk := by
  rcases s.load_cases key with ⟨_, u, hc, hd⟩ | ⟨_, u, hc, _, hd⟩
  · rw [hc, hd]
  · rw [hc, hd]

theorem load_ok {r : Option BindingSet} (h : (s.load key).1 = .ok r) : s.disk.load key = .ok r := by
  rcases s.load_cases key with ⟨_, u, hc, _⟩ | ⟨_, u, hc, hl, _⟩
  · rw [hc] at h
    cases h
  · rw [hc] at h
    cases h
    exact hl

theorem load_spared (h : s.Spares .load) (key : ContextKey) :
    (s.load key).1 = s.disk.load key := by
  unfold load
  rw [call_spared h]
  cases s.disk.load key <;> rfl

theorem save_cases (s : Store) (key : ContextKey) (bindings : BindingSet) :
    (∃ failure u, s.save key bindings = (.error failure, u) ∧ u.disk = s.disk) ∨
      ∃ u, s.save key bindings = (.ok (), u) ∧ s.disk.save key bindings = .ok u.disk := by
  rcases s.call_cases .save fun d => (d.save key bindings).map ((), ·) with h | ⟨_, u, hc, hb⟩
  · exact .inl h
  · obtain ⟨_, hd, he⟩ := map_ok hb
    exact .inr ⟨u, hc, (Prod.mk.inj he).2 ▸ hd⟩

theorem remove_cases (s : Store) (key : ContextKey) :
    (∃ failure u, s.remove key = (.error failure, u) ∧ u.disk = s.disk) ∨
      ∃ u, s.remove key = (.ok (s.disk.contains key), u) ∧ u.disk = s.disk.remove key := by
  rcases s.call_cases .remove fun d => .ok (d.contains key, d.remove key) with h | ⟨a, u, hc, hb⟩
  · exact .inl h
  · obtain ⟨rfl, hd⟩ := Prod.mk.inj (Except.ok.inj hb)
    exact .inr ⟨u, hc, hd.symm⟩

theorem remove_spared (h : s.Spares .remove) (key : ContextKey) :
    ∃ u, s.remove key = (.ok (s.disk.contains key), u) :=
  ⟨_, call_spared h _⟩

theorem allocate_cases (s : Store) :
    (∃ failure u, s.allocate = (.error failure, u) ∧ u.disk = s.disk) ∨
      ∃ key u, s.allocate = (.ok key, u) ∧ s.disk.allocate = .ok (key, u.disk) :=
  s.call_cases .allocate Disk.allocate

theorem setRoot_cases (s : Store) (key : ContextKey) :
    (∃ failure u, s.setRoot key = (.error failure, u) ∧ u.disk = s.disk) ∨
      ∃ u, s.setRoot key = (.ok (), u) ∧ u.disk = s.disk.setRoot key := by
  rcases s.call_cases .setRoot fun d => .ok ((), d.setRoot key) with h | ⟨a, u, hc, hb⟩
  · exact .inl h
  · exact .inr ⟨u, hc, (Prod.mk.inj (Except.ok.inj hb)).2.symm⟩

theorem contains_disk (s : Store) (key : ContextKey) : (s.contains key).2.disk = s.disk := by
  rcases s.call_cases .contains fun d => .ok (d.contains key, d) with
    ⟨_, u, hc, hd⟩ | ⟨_, u, hc, hb⟩
  · exact (congrArg (·.2.disk) hc).trans hd
  · exact (congrArg (·.2.disk) hc).trans (Prod.mk.inj (Except.ok.inj hb)).2.symm

theorem keys_disk (s : Store) : s.keys.2.disk = s.disk := by
  rcases s.call_cases .keys fun d => d.keys.map (·, d) with ⟨_, u, hc, hd⟩ | ⟨_, u, hc, hb⟩
  · exact (congrArg (·.2.disk) hc).trans hd
  · obtain ⟨_, _, he⟩ := map_ok hb
    exact (congrArg (·.2.disk) hc).trans (Prod.mk.inj he).2.symm

/-- Two stores that differ in nothing but how often they were asked to load. -/
structure Alike (s t : Store) : Prop where
  disk : s.disk = t.disk
  fails : s.faults.fails = t.faults.fails
  made : ∀ kind, kind ≠ .load → s.faults.made.get kind = t.faults.made.get kind

theorem Alike.refl (s : Store) : Alike s s := ⟨rfl, rfl, fun _ _ => rfl⟩

theorem Alike.symm (h : Alike s t) : Alike t s :=
  ⟨h.disk.symm, h.fails.symm, fun kind hk => (h.made kind hk).symm⟩

theorem Alike.trans {u : Store} (h : Alike s t) (h' : Alike t u) : Alike s u :=
  ⟨h.disk.trans h'.disk, h.fails.trans h'.fails,
    fun kind hk => (h.made kind hk).trans (h'.made kind hk)⟩

theorem Alike.load (s : Store) (key : ContextKey) : Alike (s.load key).2 s := by
  have hf : (s.load key).2.faults = _ := s.call_faults _ _
  refine ⟨s.load_disk key, hf ▸ rfl, fun kind hk => ?_⟩
  rw [hf, CallCount.get_tick, if_neg hk]

/-- Stores that are alike answer the same, unless they are asked to load. -/
theorem Alike.call (h : Alike s t) (hk : kind ≠ .load)
    (body : Disk → Except StorageFailure (α × Disk)) :
    ∃ result u v, s.call kind body = (result, u) ∧ t.call kind body = (result, v) ∧ Alike u v := by
  have hsame : (s.call kind body).1 = (t.call kind body).1 ∧
      (s.call kind body).2.disk = (t.call kind body).2.disk := by
    unfold Store.call
    rw [h.made kind hk, h.fails, h.disk]
    split
    · exact ⟨rfl, rfl⟩
    · cases body t.disk <;> exact ⟨rfl, rfl⟩
  refine ⟨(s.call kind body).1, (s.call kind body).2, (t.call kind body).2, rfl,
    Prod.ext hsame.1.symm rfl, hsame.2, ?_, fun other ho => ?_⟩
  · rw [call_faults, call_faults, h.fails]
  · simp only [call_faults, CallCount.get_tick, h.made other ho]

theorem Alike.save (h : Alike s t) (key : ContextKey) (bindings : BindingSet) :
    ∃ result u v, s.save key bindings = (result, u) ∧ t.save key bindings = (result, v) ∧
      Alike u v :=
  h.call (show StoreCall.save ≠ .load from nofun) _

theorem Alike.remove (h : Alike s t) (key : ContextKey) :
    ∃ result u v, s.remove key = (result, u) ∧ t.remove key = (result, v) ∧ Alike u v :=
  h.call (show StoreCall.remove ≠ .load from nofun) _

theorem Alike.contains (h : Alike s t) (key : ContextKey) :
    ∃ result u v, s.contains key = (result, u) ∧ t.contains key = (result, v) ∧ Alike u v :=
  h.call (show StoreCall.contains ≠ .load from nofun) _

theorem Alike.allocate (h : Alike s t) :
    ∃ result u v, s.allocate = (result, u) ∧ t.allocate = (result, v) ∧ Alike u v :=
  h.call (show StoreCall.allocate ≠ .load from nofun) _

theorem Alike.keys (h : Alike s t) :
    ∃ result u v, s.keys = (result, u) ∧ t.keys = (result, v) ∧ Alike u v :=
  h.call (show StoreCall.keys ≠ .load from nofun) _

theorem Alike.setRoot (h : Alike s t) (key : ContextKey) :
    ∃ result u v, s.setRoot key = (result, u) ∧ t.setRoot key = (result, v) ∧ Alike u v :=
  h.call (show StoreCall.setRoot ≠ .load from nofun) _

end Store

end Naming
