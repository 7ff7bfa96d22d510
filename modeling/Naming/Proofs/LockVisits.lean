import Naming.Proofs.Operations
import Naming.Proofs.Steps

namespace Naming

variable {α β : Type}

/-- What is kept in memory under a key, if anything, is what the record holds. -/
def Store.Backs (s : Store) (key : ContextKey) (kept : Option BindingSet) : Prop :=
  ∀ bindings, kept = some bindings → s.disk.load key = .ok (some bindings)

namespace Action

/-- Steps that concern neither the locks nor the store nor what is kept in memory, and never close
the gate. -/
inductive Aside : Action → Prop
  | enterGate : Aside (.enterGate .shared)
  | leaveGate : Aside (.leaveGate .shared)
  | clearUnbound (key : ContextKey) : Aside (.clearUnbound key)
  | note (event : Log.Event) : Aside (.note event)

/-- Whether a step is the grant of a lock. -/
def grants : Action → Bool
  | enterLock .. => true
  | _ => false

theorem Aside.plain {a : Action} (h : a.Aside) : a.grants = false := by
  cases h <;> rfl

/-- What a step aside leaves alone. -/
structure Beside (s t : Server) : Prop where
  store : t.store = s.store
  locks : t.memory.locks = s.memory.locks
  resident : t.memory.resident = s.memory.resident
  opened : t.memory.gate.closed = s.memory.gate.closed

theorem Aside.performs {a : Action} (h : a.Aside) {s : Server}
    (hopen : s.memory.gate.closed = false) :
    ∃ r t, a.perform? s = some (r, t) ∧ Beside s t := by
  cases h with
  | enterGate =>
    have henter : perform? (.enterGate .shared) s = some ((), s.entered) := by
      simp [perform?, Gate.enter?, hopen, Server.entered]
    exact ⟨_, _, henter, rfl, rfl, rfl, rfl⟩
  | leaveGate => exact ⟨_, _, rfl, rfl, rfl, rfl, rfl⟩
  | clearUnbound key => exact ⟨_, _, rfl, rfl, rfl, rfl, rfl⟩
  | note event => exact ⟨_, _, rfl, rfl, rfl, rfl, rfl⟩

end Action

namespace Job

theorem bind_assoc {γ : Type} (t : Job α) (f : α → Job β) (g : β → Job γ) :
    (t.bind f).bind g = t.bind fun a => (f a).bind g := by
  induction t with
  | done a => rfl
  | step action next ih =>
    simp only [bind]
    exact congrArg _ (funext ih)

/-- What is left of a job that has given the lock of a key back. Its answer stands. -/
inductive Trails (key : ContextKey) (answer : α) : Job α → Prop
  | done : Trails key answer (.done answer)
  | aside {action : Action} {next : action.Result → Job α} (beside : action.Aside)
      (rest : ∀ r, Trails key answer (next r)) : Trails key answer (.step action next)
  | releaseIdle {next : Unit → Job α} (rest : Trails key answer (next ())) :
      Trails key answer (.step (.releaseIdle key) next)

/-- What is left of a job that holds the lock of a key, with the answer that it leads to and the
store that it gives the lock back on, told from the store that it is at now. What is kept in memory
may be trusted until the record is changed, and has to be settled after that. -/
inductive Holds (key : ContextKey) (id : Nat) (access : Access) (answer : α) (last : Store) :
    Bool → Store → Job α → Prop
  | resident {s : Store} {next : Option BindingSet → Job α}
      (rest : ∀ kept, s.Backs key kept → Holds key id access answer last true s (next kept)) :
      Holds key id access answer last true s (.step (.resident key) next)
  | load {tidy : Bool} {s : Store} {next : Except StorageFailure (Option BindingSet) → Job α}
      (rest : Holds key id access answer last tidy s (next (s.disk.load key))) :
      Holds key id access answer last tidy s (.step (.load key) next)
  | contains {tidy : Bool} {s : Store} {next : Except StorageFailure Bool → Job α}
      (alone : access = .exclusive) (other : ContextKey)
      (rest : Holds key id access answer last tidy (s.contains other).2
        (next (s.contains other).1)) :
      Holds key id access answer last tidy s (.step (.contains other) next)
  | save {tidy : Bool} {s : Store} {next : Except StorageFailure Unit → Job α}
      (alone : access = .exclusive) (bindings : BindingSet)
      (rest : Holds key id access answer last false (s.save key bindings).2
        (next (s.save key bindings).1)) :
      Holds key id access answer last tidy s (.step (.save key bindings) next)
  | remove {tidy : Bool} {s : Store} {next : Except StorageFailure Bool → Job α}
      (alone : access = .exclusive)
      (rest : Holds key id access answer last false (s.remove key).2 (next (s.remove key).1)) :
      Holds key id access answer last tidy s (.step (.remove key) next)
  | settle {tidy : Bool} {s : Store} {next : Unit → Job α} (kept : Option BindingSet)
      (backed : s.Backs key kept) (rest : Holds key id access answer last true s (next ())) :
      Holds key id access answer last tidy s (.step (.settle key kept) next)
  | aside {tidy : Bool} {s : Store} {action : Action} {next : action.Result → Job α}
      (beside : action.Aside) (rest : ∀ r, Holds key id access answer last tidy s (next r)) :
      Holds key id access answer last tidy s (.step action next)
  | leave {s : Store} {next : Unit → Job α} (same : s.Alike last)
      (rest : Trails key answer (next ())) :
      Holds key id access answer last true s (.step (.leaveLock id access) next)

/-- A job that has not asked for the lock of a key yet. Once it has the lock, it goes on as told by
the number of the lock. -/
inductive Heads (key : ContextKey) (access : Access) (body : Nat → Job α) : Job α → Prop
  | aside {action : Action} {next : action.Result → Job α} (beside : action.Aside)
      (rest : ∀ r, Heads key access body (next r)) : Heads key access body (.step action next)
  | refer : Heads key access body
      (.step (.referLock key) fun id => .step (.enterLock id access) fun _ => body id)

/-- A job that takes the lock of one key once, and does to its record what depends on neither the
number of the lock nor what is kept in memory. -/
structure Visits (key : ContextKey) (access : Access) (body : Nat → Job α) (job : Job α) :
    Prop where
  heads : Heads key access body job
  holds : ∀ s : Store, s.disk.Sound → ∃ answer last, ∀ id,
    Holds key id access answer last true s (body id)

variable {key : ContextKey} {id : Nat} {access : Access} {answer : α} {last : Store} {tidy : Bool}
  {s t : Store} {body : Nat → Job α} {job : Job α}

/-- What trusts nothing in memory is good as well where that can be trusted. -/
theorem Holds.relax (h : Holds key id access answer last false s job) :
    Holds key id access answer last tidy s job := by
  generalize hfalse : false = before at h
  induction h with
  | resident | leave => cases hfalse
  | load _ ih => exact .load (ih hfalse)
  | contains alone other _ ih => exact .contains alone other (ih hfalse)
  | save alone bindings rest => exact .save alone bindings rest
  | remove alone rest => exact .remove alone rest
  | settle kept backed rest => exact .settle kept backed rest
  | aside beside _ ih => exact .aside beside fun r => ih r hfalse

/-- How often the store was asked to load makes no difference. -/
theorem Holds.alike {last' : Store} (h : Holds key id access answer last tidy s job)
    (hst : s.Alike t) (hlast : last.Alike last') :
    Holds key id access answer last' tidy t job := by
  induction h generalizing t with
  | resident _ ih => exact .resident fun kept hk => ih kept (by rwa [Store.Backs, hst.disk]) hst
  | load _ ih =>
    rw [hst.disk] at ih
    exact .load (ih hst)
  | contains alone other _ ih =>
    obtain ⟨result, u, v, hu, hv, huv⟩ := hst.contains other
    rw [hu] at ih
    refine .contains alone other ?_
    rw [hv]
    exact ih huv
  | save alone bindings _ ih =>
    obtain ⟨result, u, v, hu, hv, huv⟩ := hst.save key bindings
    rw [hu] at ih
    refine .save alone bindings ?_
    rw [hv]
    exact ih huv
  | remove alone _ ih =>
    obtain ⟨result, u, v, hu, hv, huv⟩ := hst.remove key
    rw [hu] at ih
    refine .remove alone ?_
    rw [hv]
    exact ih huv
  | settle kept backed _ ih => exact .settle kept (by rwa [Store.Backs, ← hst.disk]) (ih hst)
  | aside beside _ ih => exact .aside beside fun r => ih r hst
  | leave same rest => exact .leave ((hst.symm.trans same).trans hlast) rest

/-- Who shares a lock changes nothing. -/
theorem Holds.shared (h : Holds key id .shared answer last tidy s job) : s.Alike last := by
  generalize hshared : Access.shared = access at h
  induction h with
  | resident _ ih => exact ih none nofun
  | load _ ih => exact ih
  | contains alone | save alone | remove alone =>
    rw [alone] at hshared
    cases hshared
  | settle _ _ _ ih => exact ih
  | aside beside _ ih =>
    cases beside <;> exact ih ()
  | leave same _ => exact same

variable {f : α → Job β} {answer' : β}

theorem Trails.bind (h : Trails key answer job) (hf : Trails key answer' (f answer)) :
    Trails key answer' (job.bind f) := by
  induction h with
  | done => exact hf
  | aside beside _ ih => exact .aside beside ih
  | releaseIdle _ ih => exact .releaseIdle ih

/-- What follows a job that holds a lock follows its answer. -/
theorem Holds.bind (h : Holds key id access answer last tidy s job)
    (hf : Trails key answer' (f answer)) :
    Holds key id access answer' last tidy s (job.bind f) := by
  induction h with
  | resident _ ih => exact .resident ih
  | load _ ih => exact .load ih
  | contains alone other _ ih => exact .contains alone other ih
  | save alone bindings _ ih => exact .save alone bindings ih
  | remove alone _ ih => exact .remove alone ih
  | settle kept backed _ ih => exact .settle kept backed ih
  | aside beside _ ih => exact .aside beside ih
  | leave same rest => exact .leave same (rest.bind hf)

theorem Heads.bind (h : Heads key access body job) (f : α → Job β) :
    Heads key access (fun id => (body id).bind f) (job.bind f) := by
  induction h with
  | aside beside _ ih => exact .aside beside ih
  | refer => exact .refer

theorem Visits.bind (h : Visits key access body job)
    (hf : ∀ a, ∃ b, Trails key b (f a)) :
    Visits key access (fun id => (body id).bind f) (job.bind f) := by
  refine ⟨h.heads.bind f, fun s hs => ?_⟩
  obtain ⟨a, last, hbody⟩ := h.holds s hs
  obtain ⟨b, hb⟩ := hf a
  exact ⟨b, last, fun id => (hbody id).bind hb⟩

end Job

namespace Server

/-- What is kept in memory for a context, if anything, is what its record holds. -/
def Backs (s : Server) (key : ContextKey) : Prop :=
  s.store.Backs key (s.memory.resident.get? key)

theorem Sound.backs {s : Server} (h : s.Sound) (key : ContextKey) : s.Backs key :=
  h.resident key

theorem Backs.congr {s t : Server} {key : ContextKey} (h : s.Backs key)
    (hs : t.store.disk = s.store.disk) (hm : t.memory.resident = s.memory.resident) :
    t.Backs key := by
  unfold Backs Store.Backs
  rw [hs, hm]
  exact h

end Server

namespace Job

variable {key : ContextKey} {id : Nat} {access : Access} {answer : α} {last : Store}
  {s t : Server} {job : Job α}

/-- A job that holds the lock of a key on a server, with what it leads to there. -/
structure Held (key : ContextKey) (id : Nat) (access : Access) (answer : α) (last : Store)
    (s : Server) (job : Job α) : Prop where
  told : ∃ tidy, Holds key id access answer last tidy s.store job ∧ (tidy = true → s.Backs key)

theorem Held.congr {last' : Store} (h : Held key id access answer last s job)
    (hst : s.store.Alike t.store) (hlast : last.Alike last') (hb : s.Backs key → t.Backs key) :
    Held key id access answer last' t job := by
  obtain ⟨tidy, hholds, hbacks⟩ := h.told
  exact ⟨tidy, hholds.alike hst hlast, hb ∘ hbacks⟩

/-- What a step of a job that holds a lock leaves alone. Who shares the lock also leaves the record
alone, and whatever memory holds of it remains true. -/
structure Inside (key : ContextKey) (access : Access) (s t : Server) : Prop where
  locks : t.memory.locks = s.memory.locks
  opened : t.memory.gate.closed = s.memory.gate.closed
  fails : t.store.faults.fails = s.store.faults.fails
  shared : access = .shared → s.store.Alike t.store ∧ (s.Backs key → t.Backs key)

/-- What a job that holds a lock does next: it stays and holds it, or gives it back on the store
that it was to leave. -/
inductive Held.Goes (key : ContextKey) (id : Nat) (access : Access) (answer : α) (last : Store)
    (s : Server) : Job α → Prop
  | stays {action : Action} {next : action.Result → Job α} {r : action.Result} {t : Server}
      (plain : action.grants = false) (performed : action.perform? s = some (r, t))
      (inside : Inside key access s t)
      (held : Held key id access answer last t (next r)) :
      Goes key id access answer last s (.step action next)
  | leaves {next : Unit → Job α} (same : s.store.Alike last) (backed : s.Backs key)
      (trails : Trails key answer (next ())) :
      Goes key id access answer last s (.step (.leaveLock id access) next)

theorem Held.goes (h : Held key id access answer last s job) (hl : s.store.Spares .load)
    (hopen : s.memory.gate.closed = false) : Held.Goes key id access answer last s job := by
  obtain ⟨tidy, hholds, hbacks⟩ := h.told
  cases hholds with
  | resident rest =>
    have hs := hbacks rfl
    have hp : Action.perform? (.resident key) s = some (s.memory.resident.get? key, s) := rfl
    exact .stays rfl hp ⟨rfl, rfl, rfl, fun _ => ⟨.refl _, fun _ => hs⟩⟩
      ⟨true, rest _ hs, fun _ => hs⟩
  | load rest =>
    have halike := (Store.Alike.load s.store key).symm
    have hb : s.Backs key → Server.Backs { s with store := (s.store.load key).2 } key :=
      fun hs => hs.congr halike.disk.symm rfl
    have hp : Action.perform? (.load key) s =
        some (s.store.disk.load key, { s with store := (s.store.load key).2 }) := by
      rw [← Store.load_spared hl]
      rfl
    exact .stays rfl hp ⟨rfl, rfl, halike.fails.symm, fun _ => ⟨halike, hb⟩⟩
      ⟨tidy, rest.alike halike (.refl last), hb ∘ hbacks⟩
  | contains alone other rest =>
    have hb : s.Backs key → Server.Backs { s with store := (s.store.contains other).2 } key :=
      fun hs => hs.congr (s.store.contains_disk other) rfl
    have hp : Action.perform? (.contains other) s =
        some ((s.store.contains other).1, { s with store := (s.store.contains other).2 }) := rfl
    exact .stays rfl hp ⟨rfl, rfl, s.store.call_fails _ _, fun hs => nomatch alone.symm.trans hs⟩
      ⟨tidy, rest, hb ∘ hbacks⟩
  | save alone bindings rest =>
    obtain ⟨t, hp, hstore, hmemory⟩ := Action.performs_save key bindings s
    refine .stays rfl hp
      ⟨by rw [hmemory], by rw [hmemory], ?_, fun hs => nomatch alone.symm.trans hs⟩
      ⟨false, hstore ▸ rest, nofun⟩
    rw [hstore]
    exact s.store.call_fails _ _
  | remove alone rest =>
    have hp : Action.perform? (.remove key) s =
        some ((s.store.remove key).1, { s with store := (s.store.remove key).2 }) := rfl
    exact .stays rfl hp ⟨rfl, rfl, s.store.call_fails _ _, fun hs => nomatch alone.symm.trans hs⟩
      ⟨false, rest, nofun⟩
  | settle kept backed rest =>
    obtain ⟨t, hp, hstore, hlocks, hgate, hkept⟩ := Action.performs_settle key kept s
    have ht : t.Backs key := fun bindings hb => hstore ▸ backed bindings
      ((hkept key bindings hb).resolve_right fun hother => hother.1 rfl).2
    refine .stays rfl hp ⟨hlocks, by rw [hgate], by rw [hstore], fun _ => ⟨?_, fun _ => ht⟩⟩
      ⟨true, hstore ▸ rest, fun _ => ht⟩
    exact hstore ▸ .refl _
  | aside beside rest =>
    obtain ⟨r, t, hp, hb⟩ := beside.performs hopen
    have hback : s.Backs key → t.Backs key := fun hs => hs.congr (by rw [hb.store]) hb.resident
    refine .stays beside.plain hp ⟨hb.locks, hb.opened, by rw [hb.store], fun _ => ⟨?_, hback⟩⟩
      ⟨tidy, hb.store ▸ rest r, hback ∘ hbacks⟩
    exact hb.store ▸ .refl _
  | leave same rest => exact .leaves same (hbacks rfl) rest

theorem Trails.run (h : Trails key answer job) (hopen : s.memory.gate.closed = false) :
    ∃ t, job.run s = some (answer, t) ∧ t.store = s.store := by
  induction h generalizing s with
  | done => exact ⟨s, rfl, rfl⟩
  | aside beside _ ih =>
    obtain ⟨r, u, hp, hb⟩ := beside.performs hopen
    obtain ⟨t, hr, ht⟩ := ih r (hb.opened.trans hopen)
    refine ⟨t, ?_, ht.trans hb.store⟩
    simp only [Job.run, hp, hr]
  | releaseIdle _ ih =>
    obtain ⟨t, hr, ht⟩ := ih (s := { s with memory.locks := s.memory.locks.releaseIdle key }) hopen
    exact ⟨t, hr, ht⟩

/-- A job that holds a lock and is not disturbed ends as told. -/
theorem Held.run (h : Held key id access answer last s job) (hl : s.store.Spares .load)
    (hopen : s.memory.gate.closed = false) :
    ∃ t, job.run s = some (answer, t) ∧ t.store.Alike last := by
  induction job generalizing s with
  | done a => cases h.goes hl hopen
  | step action next ih =>
    cases h.goes hl hopen with
    | stays _ performed inside held =>
      have hspares := fun n => inside.fails ▸ hl n
      obtain ⟨t, hr, ht⟩ := ih _ held hspares (inside.opened.trans hopen)
      refine ⟨t, ?_, ht⟩
      simp only [Job.run, performed, hr]
    | leaves same backed trails =>
      obtain ⟨t, hr, ht⟩ := trails.run
        (s := { s with memory.locks := s.memory.locks.leave id access }) hopen
      exact ⟨t, hr, ht ▸ same⟩

theorem Heads.run {body : Nat → Job α} (h : Heads key access body job)
    (hi : s.memory.locks.Idle) (hopen : s.memory.gate.closed = false) :
    ∃ t id, job.run s = (body id).run t ∧ t.store = s.store ∧
      t.memory.resident = s.memory.resident ∧ t.memory.gate.closed = false := by
  induction h generalizing s with
  | aside beside _ ih =>
    obtain ⟨r, u, hp, hb⟩ := beside.performs hopen
    obtain ⟨t, id, hr, hstore, hresident, hgate⟩ :=
      ih r (s := u) (by rw [LockTable.Idle, hb.locks]; exact hi) (hb.opened.trans hopen)
    refine ⟨t, id, ?_, hstore.trans hb.store, hresident.trans hb.resident, hgate⟩
    simp only [Job.run, hp, hr]
  | refer =>
    obtain ⟨store, ⟨retention, ⟨table, held, id⟩, resident, gate, unbound⟩, events⟩ := s
    cases hi
    refine ⟨⟨store, ⟨retention, .single id key access, resident, gate, unbound⟩, events⟩, id, ?_,
      rfl, rfl, hopen⟩
    simp only [Job.run, Action.perform?, LockTable.refer_idle, LockTable.enter_single,
      Option.map_some]

/-- A job that visits a context and is not disturbed ends as told by any lock. -/
theorem Visits.run {body : Nat → Job α} (h : Visits key access body job)
    (hi : s.memory.locks.Idle) (hopen : s.memory.gate.closed = false) (hs : s.Sound)
    (hl : s.store.Spares .load) : ∃ answer t, job.run s = some (answer, t) ∧
      ∀ id, Holds key id access answer t.store true s.store (body id) := by
  obtain ⟨u, id, hr, hstore, hresident, hgate⟩ := h.heads.run hi hopen
  obtain ⟨answer, last, hholds⟩ := h.holds s.store hs.disk
  have hbacks : u.Backs key := (hs.backs key).congr (by rw [hstore]) hresident
  have hheld : Held key id access answer last u (body id) :=
    ⟨true, hstore ▸ hholds id, fun _ => hbacks⟩
  obtain ⟨t, hrun, ht⟩ := hheld.run (fun n => hstore ▸ hl n) hgate
  exact ⟨answer, t, hr.trans hrun, fun id => (hholds id).alike (.refl _) ht.symm⟩

end Job

end Naming
