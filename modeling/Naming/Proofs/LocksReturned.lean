import Naming.Proofs.ActivatorsCoherent
import Naming.Proofs.Recycling
import Naming.Proofs.ReachedAtRest

namespace Naming

variable {α β : Type} {n : Nat}

/-- What a client has of the locks, and the key of a lock that it has left but not dropped yet. -/
structure Tie where
  grip : Grip := .free
  owes : Option ContextKey := none

namespace Tie

/-- The key whose lock may be in the table because of a client. -/
def key? (tie : Tie) : Option ContextKey := (tie.grip.lock?.map (·.1)).or tie.owes

/-- Where a step leaves a client. -/
def after (tie : Tie) (a : Action) (r : a.Result) : Tie where
  grip := tie.grip.after a r
  owes :=
    match a with
    | .leaveLock _ _ => tie.key?
    | .releaseIdle _ => none
    | _ => tie.owes

/-- Steps that a client may take as it stands. It refers to a lock only when it has nothing to do
with another, and it never waits but for a lock. -/
inductive Fits (tie : Tie) : Action → Prop
  | refer (key : ContextKey) (free : tie = {}) : Fits tie (.referLock key)
  | enter {key : ContextKey} {id : Nat} (access : Access) (asks : tie.grip = .asks key id) :
      Fits tie (.enterLock id access)
  | leave {key : ContextKey} {id : Nat} {access : Access}
      (holds : tie.grip = .holds key id access) :
      Fits tie (.leaveLock id access)
  | drop {key : ContextKey} (left : tie = { owes := some key }) : Fits tie (.releaseIdle key)
  | other {a : Action} (apart : a.part ≠ .locks)
      (goes : ∀ s, ∃ r t, a.perform? s = some (r, t)) : Fits tie a

variable {tie : Tie} {a : Action} {key : ContextKey} {id : Nat}

theorem Fits.grip (h : tie.Fits a) : tie.grip.Fits a := by
  cases h with
  | refer key free => exact .refer key (congrArg Tie.grip free)
  | enter access asks => exact .enter access asks
  | leave holds => exact .leave holds
  | drop left => exact .releaseIdle _
  | other apart goes => exact .other apart

theorem key?_of_lock? (h : tie.grip.lock? = some (key, id)) : tie.key? = some key := by
  rw [key?, h]
  rfl

theorem after_apart (tie : Tie) (r : a.Result) (ha : a.part ≠ .locks) : tie.after a r = tie := by
  have hgrip := tie.grip.after_apart r ha
  cases a with
  | referLock key | enterLock id access | leaveLock id access | releaseIdle key =>
    exact absurd rfl ha
  | _ => exact congrArg (Tie.mk · tie.owes) hgrip

end Tie

namespace LockTable

variable {t u : LockTable} {key other : ContextKey} {id : Nat}

/-- The keys whose locks are in the table. -/
def keys (t : LockTable) : List ContextKey := t.table.map (·.1)

theorem mem_keys_iff : key ∈ t.keys ↔ ∃ id, t.table.lookup key = some id := by
  rw [← Option.isSome_iff_exists, List.lookup_isSome_iff]
  simp [keys]

/-- Every key has one lock in the table, and every lock a key. -/
structure Tidy (t : LockTable) : Prop where
  nodup : t.keys.Nodup
  named : ∀ l ∈ t.locks, ∃ key, t.table.lookup key = some l.id

theorem tidy_idle (h : t.Idle) : t.Tidy := by
  have ht : t = { fresh := t.fresh } := h
  rw [ht]
  exact ⟨List.nodup_nil, nofun⟩

/-- Where no key is left there is no lock either. -/
theorem Tidy.idle (h : t.Tidy) (hnone : ∀ key, key ∉ t.keys) : t.Idle := by
  have htable : t.table = [] := List.map_eq_nil_iff.mp (List.eq_nil_iff_forall_not_mem.mpr hnone)
  have hlocks : t.locks = [] := by
    refine List.eq_nil_iff_forall_not_mem.mpr fun l hl => ?_
    obtain ⟨key, hkey⟩ := h.named l hl
    exact hnone key (mem_keys_iff.mpr ⟨_, hkey⟩)
  obtain ⟨table, locks, fresh⟩ := t
  cases htable
  cases hlocks
  rfl

theorem Tidy.update (h : t.Tidy) {change : Lock → Lock} (hid : ∀ l, (change l).id = l.id)
    (id : Nat) : (t.update id change).Tidy := by
  refine ⟨h.nodup, fun l hl => ?_⟩
  obtain ⟨before, hbefore, rfl⟩ := List.mem_map.mp hl
  obtain ⟨key, hkey⟩ := h.named before hbefore
  refine ⟨key, hkey.trans ?_⟩
  split
  · rw [hid]
  · rfl

/-- Nobody is new in the table but whose lock is referred to. -/
theorem lookup_refer (hne : other ≠ key) :
    (t.refer key).2.table.lookup other = t.table.lookup other := by
  unfold refer
  split
  · rfl
  · exact (lookup_cons_if other key t.fresh t.table).trans (if_neg hne)

theorem Tidy.refer (h : t.Tidy) (key : ContextKey) : (t.refer key).2.Tidy := by
  unfold LockTable.refer
  split
  · refine h.update ?_ _
    exact fun _ => rfl
  · rename_i hnone
    refine ⟨List.nodup_cons.mpr ⟨fun hmem => ?_, h.nodup⟩, fun l hl => ?_⟩
    · obtain ⟨id, hid⟩ := mem_keys_iff.mp hmem
      cases hnone.symm.trans hid
    · rcases List.mem_cons.mp hl with rfl | hl
      · exact ⟨key, by rw [lookup_cons_if, if_pos rfl]⟩
      · obtain ⟨other, hother⟩ := h.named l hl
        refine ⟨other, ?_⟩
        rw [lookup_cons_if, if_neg fun he => ?_]
        · exact hother
        · rw [he, hnone] at hother
          cases hother

/-- Only the lock of this key may be dropped. -/
theorem lookup_releaseIdle (hne : other ≠ key) :
    (t.releaseIdle key).table.lookup other = t.table.lookup other := by
  unfold releaseIdle
  split
  · rfl
  · split
    · rfl
    · split
      · rw [lookup_filter_ne, if_neg hne]
      · rfl

theorem Tidy.releaseIdle (h : t.Tidy) (key : ContextKey) : (t.releaseIdle key).Tidy := by
  unfold LockTable.releaseIdle
  split
  · exact h
  · rename_i id hkey
    split
    · exact h
    · split
      · refine ⟨(List.filter_sublist.map _).nodup h.nodup, fun l hl => ?_⟩
        obtain ⟨hl, hne⟩ := List.mem_filter.mp hl
        obtain ⟨other, hother⟩ := h.named l hl
        refine ⟨other, ?_⟩
        rw [lookup_filter_ne, if_neg fun he => ?_]
        · exact hother
        · rw [he, hkey] at hother
          cases hother
          exact of_decide_eq_true hne rfl
      · exact h

/-- Who is given a lock finds the same locks in the table. -/
theorem enter?_table {access : Access} (h : t.enter? id access = some u) : u.table = t.table := by
  unfold enter? at h
  split at h
  · cases h
  · split at h
    · cases h
      rfl
    · cases h

/-- A step keeps the table tidy. -/
theorem Tidy.perform {a : Action} {s s' : Server} {r : a.Result} (h : s.memory.locks.Tidy)
    (hp : a.perform? s = some (r, s')) : s'.memory.locks.Tidy := by
  by_cases hapart : a.part = .locks
  · cases a with
    | referLock key =>
      cases hp
      exact h.refer key
    | enterLock id access =>
      obtain ⟨locks, henter, he⟩ := Option.map_eq_some_iff.mp hp
      cases he
      unfold enter? at henter
      split at henter
      · cases henter
      · split at henter
        · cases henter
          refine h.update ?_ _
          exact fun _ => by cases access <;> rfl
        · cases henter
    | leaveLock id access =>
      cases hp
      refine h.update ?_ _
      exact fun _ => by cases access <;> rfl
    | releaseIdle key =>
      cases hp
      exact h.releaseIdle key
    | _ => cases hapart
  · rw [(Action.performs_part hp).locks hapart]
    exact h

/-- The table when each client has to do with the locks as its tie says: a key is in the table only
because of a client. -/
structure Accounted (t : LockTable) (ties : Fin n → Tie) : Prop where
  counts : t.Counts fun i => (ties i).grip
  tidy : t.Tidy
  wanted : ∀ key ∈ t.keys, ∃ i, (ties i).key? = some key

theorem accounted_idle (h : t.Idle) : t.Accounted fun _ : Fin n => {} := by
  refine ⟨.idle h, tidy_idle h, fun key hkey => ?_⟩
  have ht : t = { fresh := t.fresh } := h
  rw [ht] at hkey
  cases hkey

namespace Accounted

variable {ties : Fin n → Tie} {i : Fin n} {a : Action} {s s' : Server} {r : a.Result}

/-- Who still has a lock in the table after a step of one client: that client, or another. -/
theorem step_wanted (h : s.memory.locks.Accounted ties) (ha : (ties i).Fits a)
    (hp : a.perform? s = some (r, s')) {key : ContextKey} (hkey : key ∈ s'.memory.locks.keys) :
    ((ties i).after a r).key? = some key ∨ ∃ j, j ≠ i ∧ (ties j).key? = some key := by
  have hbefore : key ∈ s.memory.locks.keys →
      (ties i).key? ≠ some key ∨ ((ties i).after a r).key? = some key →
      ((ties i).after a r).key? = some key ∨ ∃ j, j ≠ i ∧ (ties j).key? = some key := by
    intro hkept hi
    obtain ⟨j, hj⟩ := h.wanted key hkept
    by_cases hji : j = i
    · exact .inl (hi.resolve_left fun hne => hne (hji ▸ hj))
    · exact .inr ⟨j, hji, hj⟩
  obtain ⟨id, hid⟩ := mem_keys_iff.mp hkey
  cases ha with
  | refer other free =>
    have hlocks : s'.memory.locks = (s.memory.locks.refer other).2 := by
      cases hp
      rfl
    by_cases hne : key = other
    · exact .inl (hne ▸ rfl)
    · rw [hlocks, lookup_refer hne] at hid
      refine hbefore (mem_keys_iff.mpr ⟨id, hid⟩) (.inl ?_)
      rw [free]
      exact nofun
  | enter access asks =>
    obtain ⟨locks, henter, he⟩ := Option.map_eq_some_iff.mp hp
    have htable : locks.table = s.memory.locks.table := enter?_table henter
    cases he
    rw [htable] at hid
    refine hbefore (mem_keys_iff.mpr ⟨id, hid⟩) ?_
    simp only [Tie.key?, Tie.after, Grip.after, asks, Grip.lock?]
    tauto
  | leave holds =>
    have hlocks : s'.memory.locks.table = s.memory.locks.table := by
      cases hp
      rfl
    rw [hlocks] at hid
    refine hbefore (mem_keys_iff.mpr ⟨id, hid⟩) ?_
    have hsame : ((ties i).after (.leaveLock _ _) r).key? = (ties i).key? := rfl
    rw [hsame]
    exact (em _).symm
  | drop left =>
    rename_i other
    have hlocks : s'.memory.locks = s.memory.locks.releaseIdle other := by
      cases hp
      rfl
    rw [hlocks] at hid
    by_cases hne : key = other
    · -- the lock was kept because somebody else has to do with it
      subst hne
      by_contra hnone
      have hgone := h.counts.releaseIdle_gone fun j m hj => hnone (.inr ⟨j, fun hji => ?_,
        Tie.key?_of_lock? hj⟩)
      · cases hgone.symm.trans hid
      · rw [hji, left] at hj
        cases hj
    · rw [lookup_releaseIdle hne] at hid
      refine hbefore (mem_keys_iff.mpr ⟨id, hid⟩) (.inl ?_)
      rw [left]
      exact fun he => hne (Option.some.inj he).symm
  | other apart goes =>
    rw [(Action.performs_part hp).locks apart] at hkey
    rw [Tie.after_apart _ r apart] at hbefore ⊢
    exact hbefore hkey (em _).symm

/-- The clients of a server have to do with its locks as they stand also after a step of one. -/
theorem step (h : s.memory.locks.Accounted ties) (ha : (ties i).Fits a)
    (hp : a.perform? s = some (r, s')) :
    s'.memory.locks.Accounted (Function.update ties i ((ties i).after a r)) := by
  have hgrips : (fun j => (Function.update ties i ((ties i).after a r) j).grip) =
      Function.update (fun j => (ties j).grip) i ((ties i).grip.after a r) :=
    funext fun j => Function.apply_update (fun _ => Tie.grip) ties i _ j
  have hcounts := h.counts.step ha.grip hp
  refine ⟨hgrips ▸ hcounts, h.tidy.perform hp, fun key hkey => ?_⟩
  rcases step_wanted h ha hp hkey with hi | ⟨j, hne, hj⟩
  · exact ⟨i, by rwa [Function.update_self]⟩
  · exact ⟨j, by rwa [Function.update_of_ne hne]⟩

end Accounted

end LockTable

namespace Job

/-- A job that takes only steps that fit, and when it is done has left its client as is told. -/
def Leaves (told : α → Tie → Prop) : Job α → Tie → Prop
  | done a, tie => told a tie
  | step action next, tie =>
    tie.Fits action ∧ ∀ r, (next r).Leaves told (tie.after action r)

variable {told : α → Tie → Prop} {told' : β → Tie → Prop} {job job' : Job α} {tie : Tie}
  {s t : Server}

theorem Leaves.bind {next : α → Job β} (h : job.Leaves told tie)
    (hnext : ∀ a tie, told a tie → (next a).Leaves told' tie) :
    (job.bind next).Leaves told' tie := by
  induction job generalizing tie with
  | done a => exact hnext a tie h
  | step action rest ih => exact ⟨h.1, fun r => ih r (h.2 r)⟩

/-- A step that has nothing to do with locks leaves the client as it was. -/
theorem leaves_apart {action : Action} {next : action.Result → Job α}
    (apart : action.part ≠ .locks) (goes : ∀ s, ∃ r t, action.perform? s = some (r, t))
    (h : ∀ r, (next r).Leaves told tie) : (step action next).Leaves told tie :=
  ⟨.other apart goes, fun r => (tie.after_apart r apart).symm ▸ h r⟩

theorem Leaves.advance (h : job.Leaves told tie) (ha : job.advance? s = some (job', t)) :
    ∃ (a : Action) (r : a.Result), tie.Fits a ∧ a.perform? s = some (r, t) ∧
      job'.Leaves told (tie.after a r) := by
  cases job with
  | done a => cases ha
  | step action next =>
    obtain ⟨⟨r, u⟩, hp, he⟩ := Option.map_eq_some_iff.mp ha
    cases he
    exact ⟨action, r, h.1, hp, h.2 r⟩

/-- A step that cannot be made waits for a lock. -/
theorem Leaves.stuck {action : Action} {next : action.Result → Job α}
    (h : (step action next).Leaves told tie) (ha : action.perform? s = none) :
    ∃ key id access, tie.grip = .asks key id ∧ s.memory.locks.enter? id access = none := by
  cases h.1 with
  | refer key free => cases ha
  | enter access asks => exact ⟨_, _, access, asks, Option.map_eq_none_iff.mp ha⟩
  | leave holds => cases ha
  | drop left => cases ha
  | other apart goes =>
    obtain ⟨r, t, hgoes⟩ := goes s
    cases ha.symm.trans hgoes

end Job

namespace Active

/-- Who has a context active has its lock, and owes nothing. -/
def tie (c : Active) : Tie := { grip := .holds c.key c.lock c.access }

/-- Nothing is left of an activation that fails. -/
def Tied (result : Except Failure Active) (tie : Tie) : Prop :=
  match result with
  | .error _ => tie = {}
  | .ok c => tie = c.tie

theorem leaves_find (key : ContextKey) (intent : Intent) (tie : Tie) :
    (find key intent).run.Leaves (fun _ tie' => tie' = tie) tie := by
  rw [job_find]
  refine Job.leaves_apart (by rintro ⟨⟩) (fun _ => ⟨_, _, rfl⟩) fun kept => ?_
  cases kept with
  | some bindings => rfl
  | none => exact Job.leaves_apart (by rintro ⟨⟩) (fun _ => ⟨_, _, rfl⟩) fun _ => rfl

/-- An activation that fails gives the lock back, and one that succeeds has it. -/
theorem leaves_acquire (key : ContextKey) (operation : Operation) (intent : Intent) :
    (acquire key operation intent).run.Leaves Tied {} := by
  rw [job_acquire]
  refine ⟨.refer key rfl, fun id => ⟨.enter _ rfl, fun _ => ?_⟩⟩
  refine (leaves_find key intent _).bind ?_
  rintro found _ rfl
  cases found with
  | error failure => exact ⟨.leave rfl, fun _ => ⟨.drop rfl, fun _ => rfl⟩⟩
  | ok p => exact Job.leaves_apart (by rintro ⟨⟩) (fun _ => ⟨_, _, rfl⟩) fun _ => rfl

/-- Whatever is done with an active context, its lock is kept. -/
theorem leaves_use (c : Active) (deed : Deed) :
    (deed.use.run.run c).Leaves (fun p tie => tie = p.2.tie) c.tie := by
  cases hc : c.access with
  | shared =>
    obtain ⟨failure, hdone⟩ := use_shared hc deed
    rw [hdone]
    rfl
  | exclusive =>
    cases deed with
    | edit change =>
      rw [Deed.use, job_edit hc]
      cases change c.bindings <;> rfl
    | commit =>
      rw [Deed.use, job_commit hc]
      refine Job.leaves_apart (by rintro ⟨⟩) (fun s => ?_) fun r => ?_
      · obtain ⟨_, hp, _⟩ := Action.performs_save c.key c.bindings s
        exact ⟨_, _, hp⟩
      · cases r <;> rfl
    | remove =>
      rw [Deed.use, job_remove hc]
      refine Job.leaves_apart (by rintro ⟨⟩) (fun _ => ⟨_, _, rfl⟩) fun r => ?_
      cases r <;> rfl

theorem leaves_release (c : Active) : c.release.Leaves (fun _ tie => tie = {}) c.tie := by
  refine Job.leaves_apart (by rintro ⟨⟩) (fun _ => ⟨_, _, rfl⟩) fun _ => ?_
  refine Job.leaves_apart (by rintro ⟨⟩) (fun _ => ⟨_, _, rfl⟩) fun _ => ?_
  exact ⟨.leave rfl, fun _ => ⟨.drop rfl, fun _ => rfl⟩⟩

end Active

namespace Tenancy

/-- How a client comes from one place to the next: it begins something, it takes a step of what it
has begun, or what it has begun is done. -/
inductive Goes (s : Server) : Tenancy → Tenancy → Server → Prop
  | acquires (key : ContextKey) (operation : Operation) (intent : Intent) :
      Goes s away (opening key intent (Active.acquire key operation intent).run) s
  | uses (c : Active) (deed : Deed) : Goes s (ready c) (working (deed.use.run.run c)) s
  | releases (c : Active) : Goes s (ready c) (closing c.release) s
  | opened {key : ContextKey} {intent : Intent} {c : Active} :
      Goes s (opening key intent (.done (.ok c))) (ready c) s
  | failed {key : ContextKey} {intent : Intent} {failure : Failure} :
      Goes s (opening key intent (.done (.error failure))) away s
  | used {result : Except Failure Unit} {c : Active} :
      Goes s (working (.done (result, c))) (ready c) s
  | released : Goes s (closing (.done ())) away s
  | opening {key : ContextKey} {intent : Intent} {job job' : Job (Except Failure Active)}
      {t : Server} (advances : job.advance? s = some (job', t)) :
      Goes s (opening key intent job) (opening key intent job') t
  | working {job job' : Job (Except Failure Unit × Active)} {t : Server}
      (advances : job.advance? s = some (job', t)) : Goes s (working job) (working job') t
  | closing {job job' : Job Unit} {t : Server} (advances : job.advance? s = some (job', t)) :
      Goes s (closing job) (closing job') t

variable {tenancy tenancy' : Tenancy} {tie : Tie} {s t : Server} {choice : Choice}

theorem go?_goes (h : tenancy.go? s = some (tenancy', t)) : Goes s tenancy tenancy' t := by
  cases tenancy with
  | away | ready c => cases h
  | opening key intent job =>
    cases job with
    | done result =>
      cases result <;> cases h
      · exact .failed
      · exact .opened
    | step action next =>
      obtain ⟨p, ha, he⟩ := Option.map_eq_some_iff.mp h
      cases he
      exact .opening ha
  | working job =>
    cases job with
    | done p =>
      cases h
      exact .used
    | step action next =>
      obtain ⟨p, ha, he⟩ := Option.map_eq_some_iff.mp h
      cases he
      exact .working ha
  | closing job =>
    cases job with
    | done a =>
      cases h
      exact .released
    | step action next =>
      obtain ⟨p, ha, he⟩ := Option.map_eq_some_iff.mp h
      cases he
      exact .closing ha

theorem choose?_goes (h : tenancy.choose? choice s = some (tenancy', t)) :
    Goes s tenancy tenancy' t := by
  cases choice with
  | go =>
    have hgo : tenancy.go? s = some (tenancy', t) := by
      cases tenancy <;> exact h
    exact go?_goes hgo
  | acquire key operation intent =>
    cases tenancy <;> cases h
    exact .acquires key operation intent
  | use deed =>
    cases tenancy <;> cases h
    exact .uses _ deed
  | release =>
    cases tenancy <;> cases h
    exact .releases _

/-- What a client has of the locks, told by where it is. -/
def Tied (tie : Tie) : Tenancy → Prop
  | away => tie = {}
  | opening _ _ job => job.Leaves Active.Tied tie
  | ready c => tie = c.tie
  | working job => job.Leaves (fun p tie => tie = p.2.tie) tie
  | closing job => job.Leaves (fun _ tie => tie = {}) tie

/-- A client goes on without touching the server, or takes a step that fits. -/
theorem Goes.tied (h : Goes s tenancy tenancy' t) (htied : tenancy.Tied tie) :
    (t = s ∧ tenancy'.Tied tie) ∨ ∃ (a : Action) (r : a.Result), tie.Fits a ∧
      a.perform? s = some (r, t) ∧ tenancy'.Tied (tie.after a r) := by
  cases h with
  | acquires key operation intent =>
    have hfree : tie = {} := htied
    exact .inl ⟨rfl, hfree ▸ Active.leaves_acquire key operation intent⟩
  | uses c deed =>
    have hheld : tie = c.tie := htied
    exact .inl ⟨rfl, hheld ▸ Active.leaves_use c deed⟩
  | releases c =>
    have hheld : tie = c.tie := htied
    exact .inl ⟨rfl, hheld ▸ Active.leaves_release c⟩
  | opened | failed | used | released => exact .inl ⟨rfl, htied⟩
  | opening advances | working advances | closing advances =>
    exact .inr (Job.Leaves.advance htied advances)

/-- A client that cannot go on is away, or has a context active, or waits for a lock. -/
theorem Tied.stuck (h : tenancy.Tied tie) (hs : tenancy.go? s = none) :
    (tenancy = away ∧ tie = {}) ∨ (∃ c, tenancy = ready c ∧ tie = c.tie) ∨
      ((∀ c, tenancy ≠ ready c) ∧ ∃ key id access, tie.grip = .asks key id ∧
        s.memory.locks.enter? id access = none) := by
  cases tenancy with
  | away => exact .inl ⟨rfl, h⟩
  | ready c => exact .inr (.inl ⟨c, rfl, h⟩)
  | opening key intent job =>
    cases job with
    | done result => cases result <;> cases hs
    | step action next =>
      have ha : action.perform? s = none :=
        Option.map_eq_none_iff.mp (Option.map_eq_none_iff.mp hs)
      exact .inr (.inr ⟨nofun, Job.Leaves.stuck h ha⟩)
  | working job =>
    cases job with
    | done p => cases hs
    | step action next =>
      have ha : action.perform? s = none :=
        Option.map_eq_none_iff.mp (Option.map_eq_none_iff.mp hs)
      exact .inr (.inr ⟨nofun, Job.Leaves.stuck h ha⟩)
  | closing job =>
    cases job with
    | done a => cases hs
    | step action next =>
      have ha : action.perform? s = none :=
        Option.map_eq_none_iff.mp (Option.map_eq_none_iff.mp hs)
      exact .inr (.inr ⟨nofun, Job.Leaves.stuck h ha⟩)

end Tenancy

namespace Activator

variable {a a' : Activator n} {ties : Fin n → Tie} {i j : Fin n} {choice : Choice}
  {key : ContextKey} {access : Access}

/-- What holds of an activator at any time: each client has of the locks what it should have where
it is, and there are no others. -/
structure Tied (a : Activator n) (ties : Fin n → Tie) : Prop where
  locks : a.server.memory.locks.Accounted ties
  tenants : ∀ i, (a.tenants i).Tied (ties i)

theorem tied_start (store : Store) (retention : Retention) :
    (start store retention : Activator n).Tied fun _ => {} :=
  ⟨LockTable.accounted_idle rfl, fun _ => rfl⟩

/-- What one turn preserves. -/
theorem Tied.turn (h : a.Tied ties) (ht : a.turn i choice = some a') : ∃ ties', a'.Tied ties' := by
  obtain ⟨⟨tenancy, t⟩, hc, he⟩ := Option.map_eq_some_iff.mp ht
  cases he
  rcases (Tenancy.choose?_goes hc).tied (h.tenants i) with
    ⟨rfl, htied⟩ | ⟨action, r, hfits, hperforms, htied⟩
  · exact ⟨ties, h.locks, (Function.forall_update_iff a.tenants fun j tenancy =>
      tenancy.Tied (ties j)).mpr ⟨htied, fun j _ => h.tenants j⟩⟩
  · refine ⟨_, h.locks.step hfits hperforms, fun j => ?_⟩
    dsimp only
    by_cases hj : j = i
    · subst hj
      rwa [Function.update_self, Function.update_self]
    · rw [Function.update_of_ne hj, Function.update_of_ne hj]
      exact h.tenants j

/-- What all turns preserve. -/
theorem Tied.play {schedule : List (Fin n × Choice)} (h : a.Tied ties)
    (hp : play schedule a = some a') : ∃ ties', a'.Tied ties' := by
  induction schedule generalizing a ties with
  | nil =>
    cases hp
    exact ⟨ties, h⟩
  | cons entry rest ih =>
    obtain ⟨between, ht, hrest⟩ := Option.bind_eq_some_iff.mp hp
    obtain ⟨ties', hbetween⟩ := h.turn ht
    exact ih hbetween hrest

/-- Nobody has a step left of what it has begun, unless it waits for a lock. -/
def Paused (a : Activator n) : Prop := ∀ i, a.turn i .go = none

theorem Paused.stuck (h : a.Paused) (i : Fin n) : (a.tenants i).go? a.server = none := by
  have hi := Option.map_eq_none_iff.mp (h i)
  cases htenant : a.tenants i <;> rw [htenant] at hi <;> exact hi

namespace Tied

/-- A lock is held in a pause by who has the context active. -/
theorem holds_iff (h : a.Tied ties) (hpause : a.Paused) {id : Nat} :
    (ties i).grip = .holds key id access ↔
      ∃ c, a.tenants i = .ready c ∧ c.key = key ∧ c.lock = id ∧ c.access = access := by
  rcases (h.tenants i).stuck (hpause.stuck i) with
    ⟨haway, htie⟩ | ⟨c, hready, htie⟩ | ⟨hnone, _, _, _, hasks, _⟩
  · simp [htie, haway]
  · simp [htie, hready, Active.tie]
  · simp only [hasks, reduceCtorEq, false_iff]
    rintro ⟨c, hc, _⟩
    exact hnone c hc

/-- In a pause a key has its lock in the table as long as somebody has the context active. -/
theorem mem_keys_iff (h : a.Tied ties) (hpause : a.Paused) :
    key ∈ a.server.memory.locks.keys ↔ ∃ i c, a.tenants i = .ready c ∧ c.key = key := by
  constructor
  · intro hkey
    obtain ⟨i, hi⟩ := h.locks.wanted key hkey
    rcases (h.tenants i).stuck (hpause.stuck i) with
      ⟨_, htie⟩ | ⟨c, hready, htie⟩ | ⟨_, asked, id, access, hasks, hwaits⟩
    · rw [htie] at hi
      cases hi
    · rw [htie] at hi
      exact ⟨i, c, hready, Option.some.inj hi⟩
    · -- who waits for a lock waits for somebody who has it
      have hlock : (ties i).grip.lock? = some (asked, id) := by
        rw [hasks]
        rfl
      have hsame := (Tie.key?_of_lock? hlock).symm.trans hi
      cases hsame
      by_contra hnone
      have hlets : Grip.Lets (fun i => (ties i).grip) key access := by
        intro j m other hj
        obtain ⟨c, hready, hc, _⟩ := (h.holds_iff hpause).mp hj
        exact absurd ⟨j, c, hready, hc⟩ hnone
      have henters := (h.locks.counts.enter_iff hlock).mpr hlets
      rw [hwaits] at henters
      cases henters
  · rintro ⟨i, c, hready, rfl⟩
    have hgrip := (h.holds_iff hpause).mpr ⟨c, hready, rfl, rfl, rfl⟩
    exact LockTable.mem_keys_iff.mpr
      ⟨c.lock, h.locks.counts.used i _ _ (congrArg Grip.lock? hgrip)⟩

/-- In a pause a lock is to be had unless somebody has the context active in the way. -/
theorem isFree_iff (h : a.Tied ties) (hpause : a.Paused) :
    a.server.memory.locks.isFree key access = true ↔
      ∀ i c, a.tenants i = .ready c → c.key = key → access = .shared ∧ c.access = .shared := by
  have hlets : Grip.Lets (fun i => (ties i).grip) key access ↔
      ∀ i c, a.tenants i = .ready c → c.key = key → access = .shared ∧ c.access = .shared := by
    constructor
    · intro hlets i c hready hc
      exact hlets i c.lock c.access ((h.holds_iff hpause).mpr ⟨c, hready, hc, rfl, rfl⟩)
    · intro hall i id other hi
      obtain ⟨c, hready, hc, _, rfl⟩ := (h.holds_iff hpause).mp hi
      exact hall i c hready hc
  rw [← hlets]
  unfold LockTable.isFree
  cases hlookup : a.server.memory.locks.table.lookup key with
  | none =>
    simp only [true_iff]
    intro i id other hi
    cases hlookup.symm.trans (h.locks.counts.used i key id (congrArg Grip.lock? hi))
  | some id =>
    simp only [h.locks.counts.lock key id hlookup, Option.map_some, Option.getD_some]
    exact Grip.lockOf_isFree_iff

/-- A context is active for one client that has it alone, or for clients that all share it. -/
theorem apart (h : a.Tied ties) (hpause : a.Paused) {c d : Active} (hc : a.tenants i = .ready c)
    (hd : a.tenants j = .ready d) (hkey : c.key = d.key) :
    i = j ∨ c.access = .shared ∧ d.access = .shared := by
  have hi := (h.holds_iff hpause).mpr ⟨c, hc, hkey, rfl, rfl⟩
  have hj := (h.holds_iff hpause).mpr ⟨d, hd, rfl, rfl, rfl⟩
  cases hca : c.access with
  | exclusive =>
    rw [hca] at hi
    exact .inl (h.locks.counts.alone hi hj).symm
  | shared =>
    cases hda : d.access with
    | exclusive =>
      rw [hda] at hj
      exact .inl (h.locks.counts.alone hj hi)
    | shared => exact .inr ⟨rfl, rfl⟩

end Tied

/-- Locks are always given back: the table has the locks of the contexts that are active and no
others, and none after any piece of work, however it ended. -/
theorem locks_returned [Drawing] :
    (∀ (n : Nat) (store : Store) (retention : Retention) (schedule : List (Fin n × Choice))
      (a : Activator n), play schedule (start store retention) = some a → a.Paused →
      a.server.memory.locks.keys.Nodup ∧
      (∀ key, key ∈ a.server.memory.locks.keys ↔ ∃ i c, a.tenants i = .ready c ∧ c.key = key) ∧
      (∀ i j c d, a.tenants i = .ready c → a.tenants j = .ready d → c.key = d.key →
        i = j ∨ c.access = .shared ∧ d.access = .shared) ∧
      (∀ key access, a.server.memory.locks.isFree key access = true ↔
        ∀ i c, a.tenants i = .ready c → c.key = key → access = .shared ∧ c.access = .shared) ∧
      ((∀ i c, a.tenants i ≠ .ready c) → a.server.memory.locks.Idle)) ∧
    ∀ (disk : Disk) (running : Option Service) (s : Server), Worked disk running s →
      s.memory.locks.tracked = 0 ∧ (∀ key access, s.memory.locks.isFree key access = true) ∧
      (∀ service, running = some service → ∀ work : Work, ∃ t, work.Takes service s t) ∧
      ∀ retention, ∃ result t, Service.start.serve (s.restart retention) = some (result, t) := by
  refine ⟨fun n store retention schedule a hplay hpause => ?_, fun disk running s h => ?_⟩
  · obtain ⟨ties, htied⟩ := (tied_start store retention).play hplay
    refine ⟨htied.locks.tidy.nodup, fun key => htied.mem_keys_iff hpause,
      fun i j c d => htied.apart hpause, fun key access => htied.isFree_iff hpause, fun hnone => ?_⟩
    refine htied.locks.tidy.idle fun key hkey => ?_
    obtain ⟨i, c, hready, _⟩ := (htied.mem_keys_iff hpause).mp hkey
    exact hnone i c hready
  · have hidle : s.memory.locks = { fresh := s.memory.locks.fresh } := h.rest.idle
    refine ⟨?_, fun key access => ?_, fun service _ work => ?_, fun retention => ?_⟩
    · rw [hidle]
      rfl
    · rw [hidle]
      rfl
    · obtain ⟨t, htakes, _⟩ := work.serves service h.rest
      exact ⟨t, htakes⟩
    · obtain ⟨result, t, hserve, _⟩ := Service.start_serves s retention
      exact ⟨result, t, hserve⟩

/-- A client makes a context. Another one fails to activate a second context and then waits for the
first. -/
def contended : List (Fin 2 × Choice) :=
  [[(0, .acquire ⟨"NC0"⟩ .newContext .create)], .replicate 6 (0, .go),
    [(1, .acquire ⟨"NC1"⟩ .resolve .existing)], .replicate 7 (1, .go),
    [(1, .acquire ⟨"NC0"⟩ .resolve .existing), (1, .go)]].flatten

/-- The second load of a record is refused. -/
def refusing : Store where
  faults := { fails := fun call made => decide (call = .load) && made == 1 }

theorem locks_returned_contended :
    (∃ a i c, play contended (start refusing .none) = some a ∧ a.Paused ∧
      ⟨"NC0"⟩ ∈ a.server.memory.locks.keys ∧ a.tenants i = .ready c ∧ c.key = ⟨"NC0"⟩) ∧
    ∃ service s history, Service.firstRun [.call ⟨"NC9"⟩ (.list 1)] = some (service, s, history) ∧
      history.map (·.2) = [.error (.noContext ⟨"NC9"⟩)] ∧ s.memory.locks.tracked = 0 := by
  constructor
  · have hrun : (play contended (start refusing .none)).any (fun a =>
        (a.turn 0 .go).isNone && (a.turn 1 .go).isNone &&
          a.server.memory.locks.keys == [⟨"NC0"⟩]) = true := by
      decide +kernel
    obtain ⟨a, hplay, hseen⟩ := (Option.any_eq_true _ _).mp hrun
    simp only [Bool.and_eq_true, Option.isNone_iff_eq_none, beq_iff_eq] at hseen
    obtain ⟨⟨hfirst, hsecond⟩, hkeys⟩ := hseen
    have hpause : a.Paused := by
      intro i
      match i with
      | 0 => exact hfirst
      | 1 => exact hsecond
    have hkey : ⟨"NC0"⟩ ∈ a.server.memory.locks.keys := hkeys ▸ List.mem_singleton_self _
    obtain ⟨_, hactive, _⟩ := locks_returned.1 2 refusing .none contended a hplay hpause
    obtain ⟨i, c, hready, hc⟩ := (hactive _).mp hkey
    exact ⟨a, i, c, hplay, hpause, hkey, hready, hc⟩
  · have hrun : (Service.firstRun [.call ⟨"NC9"⟩ (.list 1)]).any (fun p =>
        decide (p.2.2.map (·.2) = [.error (.noContext ⟨"NC9"⟩)])) = true := by
      decide +kernel
    obtain ⟨⟨service, s, history⟩, hrun, hfailed⟩ := (Option.any_eq_true _ _).mp hrun
    obtain ⟨hempty, _⟩ := locks_returned.2 {} (some service) s (Worked.firstRun hrun)
    exact ⟨service, s, history, hrun, of_decide_eq_true hfailed, hempty⟩

end Activator

end Naming
