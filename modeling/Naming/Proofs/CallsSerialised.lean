import Naming.Proofs.Locks
import Naming.Proofs.Tasks
import Naming.Proofs.LockTakenOnce

namespace Naming

variable {α : Type} {n : Nat}

namespace LockTable

/-- The table when nobody asks for the lock of any key but one: whether there is a lock, how many
refer to it and share it, and whether somebody has it alone. Without a lock the number is that of
the next. -/
inductive Tracks (key : ContextKey) : LockTable → Nat → Nat → Nat → Bool → Prop
  | idle (id : Nat) : Tracks key { fresh := id } id 0 0 false
  | used (id references readers : Nat) (writer : Bool) :
      Tracks key ⟨[(key, id)], [⟨id, references, readers, writer⟩], id + 1⟩
        id references readers writer

variable {key : ContextKey} {id references readers : Nat} {writer : Bool} {t u : LockTable}

theorem Tracks.refer (h : t.Tracks key id references readers writer) :
    ∃ u, t.refer key = (id, u) ∧ u.Tracks key id (references + 1) readers writer := by
  cases h with
  | idle => exact ⟨_, rfl, .used id 1 0 false⟩
  | used =>
    refine ⟨_, ?_, .used id (references + 1) readers writer⟩
    simp [LockTable.refer, update]

theorem Tracks.enter_shared (h : t.Tracks key id (references + 1) readers writer)
    (he : t.enter? id .shared = some u) :
    writer = false ∧ u.Tracks key id (references + 1) (readers + 1) writer := by
  cases h with
  | used =>
    cases writer with
    | true => simp [enter?, find?, Lock.isFree] at he
    | false =>
      simp only [enter?, find?, Lock.isFree, update, Lock.enter, List.find?_cons, decide_true,
        Bool.not_false, if_true, List.map_cons, List.map_nil, Option.some.injEq] at he
      exact ⟨rfl, he ▸ .used id (references + 1) (readers + 1) false⟩

theorem Tracks.enter_exclusive (h : t.Tracks key id (references + 1) readers writer)
    (he : t.enter? id .exclusive = some u) :
    writer = false ∧ readers = 0 ∧ u.Tracks key id (references + 1) readers true := by
  cases h with
  | used =>
    by_cases hfree : writer = false ∧ readers = 0
    · obtain ⟨rfl, rfl⟩ := hfree
      simp only [enter?, find?, Lock.isFree, update, Lock.enter, List.find?_cons, decide_true,
        Bool.not_false, beq_self_eq_true, Bool.and_self, if_true, List.map_cons, List.map_nil,
        Option.some.injEq] at he
      exact ⟨rfl, rfl, he ▸ .used id (references + 1) 0 true⟩
    · simp [enter?, find?, Lock.isFree, hfree] at he

theorem Tracks.leave_shared (h : t.Tracks key id (references + 1) (readers + 1) writer) :
    (t.leave id .shared).Tracks key id references readers writer := by
  cases h with
  | used =>
    simp only [leave, update, Lock.leave, List.map_cons, List.map_nil, if_true,
      Nat.add_sub_cancel]
    exact .used id references readers writer

theorem Tracks.leave_exclusive (h : t.Tracks key id (references + 1) readers writer) :
    (t.leave id .exclusive).Tracks key id references readers false := by
  cases h with
  | used =>
    simp only [leave, update, Lock.leave, List.map_cons, List.map_nil, if_true,
      Nat.add_sub_cancel]
    exact .used id references readers false

/-- Who refers to a lock that nobody has may have it. -/
theorem Tracks.enters (h : t.Tracks key id (references + 1) 0 false) (access : Access) :
    ∃ u, t.enter? id access = some u := by
  cases h with
  | used => cases access <;> simp [enter?, find?, Lock.isFree]

/-- A lock is dropped only when nobody refers to it. -/
theorem Tracks.releaseIdle (h : t.Tracks key id references readers writer)
    (hr : references = 0 → readers = 0 ∧ writer = false) :
    ∃ id', (t.releaseIdle key).Tracks key id' references readers writer ∧
      (id' = id ∨ references = 0) := by
  cases h with
  | idle => exact ⟨id, .idle id, .inl rfl⟩
  | used =>
    by_cases hzero : references = 0
    · obtain ⟨rfl, rfl⟩ := hr hzero
      subst hzero
      refine ⟨id + 1, ?_, .inr rfl⟩
      simp only [LockTable.releaseIdle, find?, List.lookup_cons, beq_self_eq_true,
        List.find?_cons, decide_true, if_true, ne_eq, List.filter_cons, not_true_eq_false,
        decide_false, Bool.false_eq_true, if_false, List.filter_nil]
      exact .idle (id + 1)
    · refine ⟨id, ?_, .inl rfl⟩
      simp only [LockTable.releaseIdle, find?, List.lookup_cons, beq_self_eq_true,
        List.find?_cons, decide_true, hzero, if_false]
      exact .used id references readers writer

end LockTable

/-- Clients at work on one server. Each goes through the steps of its job; who was granted a lock is
taken down in the order of the grants. -/
structure Race (n : Nat) (α : Type) where
  server : Server
  jobs : Fin n → Job α
  granted : List (Fin n) := []

namespace Race

/-- One client takes a step, unless it is done or has to wait. -/
def turn (race : Race n α) (i : Fin n) : Option (Race n α) :=
  match race.jobs i with
  | .done _ => none
  | .step action next =>
    (action.perform? race.server).map fun p =>
      { server := p.2
        jobs := Function.update race.jobs i (next p.1)
        granted := if action.grants then race.granted ++ [i] else race.granted }

theorem goes_step (race : Race n α) {i : Fin n} {action : Action} {next : action.Result → Job α}
    {r : action.Result} {t : Server} (hjob : race.jobs i = .step action next)
    (hp : action.perform? race.server = some (r, t)) : ∃ next, race.turn i = some next := by
  unfold turn
  rw [hjob]
  dsimp only
  rw [hp]
  exact ⟨_, rfl⟩

/-- The clients take steps as scheduled. There is no result when one is to step that cannot. -/
def play (race : Race n α) : List (Fin n) → Option (Race n α)
  | [] => some race
  | i :: rest => (race.turn i).bind fun next => next.play rest

/-- Clients that are about to make their calls. -/
def start (c : Context) (calls : Fin n → Call) (s : Server) : Race n (Except Failure Reply) where
  server := s
  jobs i := (calls i).run c

/-- Where a client is on its way to and from the lock. -/
inductive Phase where
  | outside
  | waiting
  | holding (access : Access)
  | gone
deriving DecidableEq

namespace Phase

/-- How many references to the lock a client has. -/
def references : Phase → Nat
  | outside | gone => 0
  | waiting | holding _ => 1

def readers : Phase → Nat
  | holding .shared => 1
  | _ => 0

def granted : Phase → Bool
  | outside | waiting => false
  | holding _ | gone => true

end Phase

/-- What clients count for together. -/
def total (count : Phase → Nat) (phases : Fin n → Phase) : Nat := ∑ i, count (phases i)

theorem total_update (count : Phase → Nat) (phases : Fin n → Phase) (i : Fin n) (phase : Phase) :
    total count (Function.update phases i phase) + count (phases i) =
      total count phases + count phase :=
  sum_update count phases i phase

/-- Whether some client has the lock alone. -/
def writing (phases : Fin n → Phase) : Bool := decide (∃ i, phases i = .holding .exclusive)

theorem writing_update {phases : Fin n → Phase} {i : Fin n} {phase : Phase}
    (hi : phases i ≠ .holding .exclusive) (hp : phase ≠ .holding .exclusive) :
    writing (Function.update phases i phase) = writing phases := by
  refine decide_eq_decide.mpr ((Function.exists_update_iff phases fun _ p =>
    p = .holding .exclusive).trans ?_)
  constructor
  · rintro (hphase | ⟨j, _, hj⟩)
    · exact absurd hphase hp
    · exact ⟨j, hj⟩
  · rintro ⟨j, hj⟩
    exact .inr ⟨j, fun he => hi (he ▸ hj), hj⟩

theorem not_writing {phases : Fin n → Phase} (h : writing phases = false) (i : Fin n) :
    phases i ≠ .holding .exclusive :=
  fun hi => of_decide_eq_false h ⟨i, hi⟩

theorem total_eq_zero {count : Phase → Nat} {phases : Fin n → Phase} (h : total count phases = 0)
    (i : Fin n) : count (phases i) = 0 :=
  Finset.sum_eq_zero_iff.mp h i (Finset.mem_univ i)

/-- Who shares the lock or has it alone refers to it. -/
theorem unreferred {phases : Fin n → Phase} (h : total Phase.references phases = 0) :
    total Phase.readers phases = 0 ∧ writing phases = false := by
  have haway := total_eq_zero h
  constructor
  · refine Finset.sum_eq_zero fun i _ => ?_
    have hi := haway i
    cases hphase : phases i with
    | holding access =>
      rw [hphase] at hi
      cases hi
    | _ => rfl
  · refine decide_eq_false ?_
    rintro ⟨i, hphase⟩
    have hi := haway i
    rw [hphase] at hi
    cases hi

section

variable {phases : Fin n → Phase} {i : Fin n} {phase : Phase}

/-- Who moves without being granted the lock takes it from nobody. -/
theorem alone_move (h : ∀ j k a, phases j = .holding .exclusive → phases k = .holding a → k = j)
    (hstays : ∀ a, phase = .holding a → phases i = .holding a) (j k : Fin n) (a : Access)
    (hj : Function.update phases i phase j = .holding .exclusive)
    (hk : Function.update phases i phase k = .holding a) : k = j := by
  have hbefore : ∀ m b, Function.update phases i phase m = .holding b → phases m = .holding b := by
    intro m b hm
    by_cases hmi : m = i
    · subst hmi
      rw [Function.update_self] at hm
      exact hstays b hm
    · rwa [Function.update_of_ne hmi] at hm
  exact h j k a (hbefore j _ hj) (hbefore k a hk)

/-- Who is granted the lock while others have it shares it with them. -/
theorem alone_grant {access : Access}
    (h : ∀ j b, phases j = .holding b → b = .shared ∧ access = .shared) (j k : Fin n) (a : Access)
    (hj : Function.update phases i (.holding access) j = .holding .exclusive)
    (hk : Function.update phases i (.holding access) k = .holding a) : k = j := by
  have hbefore : ∀ m b, m ≠ i → Function.update phases i (.holding access) m = .holding b →
      b = .shared ∧ access = .shared := by
    intro m b hmi hm
    rw [Function.update_of_ne hmi] at hm
    exact h m b hm
  by_cases hji : j = i
  · subst hji
    by_contra hkj
    have hshared := (hbefore k a hkj hk).2
    rw [Function.update_self, hshared] at hj
    cases hj
  · exact nomatch (hbefore j _ hji hj).1

end

end Race

/-- Calls of a context made one after the other, and what each answers. -/
def Context.inTurn (c : Context) : List Call → Job (List (Except Failure Reply))
  | [] => .done []
  | call :: rest => do
    let answer ← (call.run c).run
    let answers ← c.inTurn rest
    return answer :: answers

theorem Context.inTurn_cons {c : Context} {call : Call} {rest : List Call}
    {answers : List (Except Failure Reply)} {s t : Server}
    (h : (c.inTurn (call :: rest)).run s = some (answers, t)) :
    ∃ answer others u, answers = answer :: others ∧ (call.run c).serve s = some (answer, u) ∧
      (c.inTurn rest).run u = some (others, t) := by
  change (Job.bind _ fun _ => Job.bind _ _).run s = _ at h
  obtain ⟨⟨answer, u⟩, hfirst, h⟩ := Option.bind_eq_some_iff.mp ((Job.run_bind _ _ s).symm.trans h)
  obtain ⟨⟨others, _⟩, hrest, h⟩ := Option.bind_eq_some_iff.mp ((Job.run_bind _ _ u).symm.trans h)
  cases h
  exact ⟨answer, others, u, rfl, hfirst, hrest⟩

theorem Context.inTurn_append {c : Context} {calls : List Call} {call : Call}
    {answers : List (Except Failure Reply)} {answer : Except Failure Reply} {s t u : Server}
    (h : (c.inTurn calls).run s = some (answers, t))
    (hlast : (call.run c).serve t = some (answer, u)) :
    (c.inTurn (calls ++ [call])).run s = some (answers ++ [answer], u) := by
  induction calls generalizing s answers with
  | nil =>
    cases h
    exact (Job.run_bind_some hlast).trans rfl
  | cons first rest ih =>
    obtain ⟨_, _, _, rfl, hfirst, hrest⟩ := Context.inTurn_cons h
    exact (Job.run_bind_some hfirst).trans ((Job.run_bind_some (ih hrest)).trans rfl)

/-- Where the job of one client stands, told by how far the client is. -/
inductive Job.Stands (key : ContextKey) (access : Access) (body : Nat → Job α) (answer : α)
    (lock : Nat) (last : Store) (s : Server) : Race.Phase → Job α → Prop
  | outside {job : Job α} (heads : Heads key access body job) :
      Stands key access body answer lock last s .outside job
  | waiting : Stands key access body answer lock last s .waiting
      (.step (.enterLock lock access) fun _ => body lock)
  | holding {job : Job α} (held : Held key lock access answer last s job) :
      Stands key access body answer lock last s (.holding access) job
  | gone {job : Job α} (trails : Trails key answer job) :
      Stands key access body answer lock last s .gone job

/-- Where a client stands changes only with its lock, and with the store while it holds that. -/
theorem Job.Stands.congr {key : ContextKey} {access : Access} {body : Nat → Job α} {answer : α}
    {lock lock' : Nat} {last last' : Store} {s t : Server} {phase : Race.Phase} {job : Job α}
    (h : Job.Stands key access body answer lock last s phase job)
    (hlock : phase.references ≠ 0 → lock' = lock)
    (hheld : phase = .holding access → s.store.Alike t.store ∧ last.Alike last' ∧
      (s.Backs key → t.Backs key)) :
    Job.Stands key access body answer lock' last' t phase job := by
  cases h with
  | outside heads => exact .outside heads
  | waiting =>
    rw [hlock Nat.one_ne_zero]
    exact .waiting
  | holding held =>
    obtain ⟨hstore, hlast, hbacks⟩ := hheld rfl
    rw [hlock Nat.one_ne_zero]
    exact .holding (held.congr hstore hlast hbacks)
  | gone trails => exact .gone trails

namespace Race

/-- What is kept beside a race: where each client is, what those who were granted the lock will
answer, the number of the lock, and the server that the same calls made in turn come to. -/
structure Shadow (n : Nat) where
  phase : Fin n → Phase
  answer : Fin n → Except Failure Reply
  lock : Nat
  server : Server

section

variable (c : Context) (calls : Fin n → Call) (access : Fin n → Access)
  (body : Fin n → Nat → Job (Except Failure Reply)) (start : Server)

/-- What holds after every step of a race for one context. Who holds the lock has on the way to its
answer the store that the calls made in turn come to; while nobody has it alone, the race is at
that store. -/
structure Serial (race : Race n (Except Failure Reply)) (w : Shadow n) : Prop where
  spares : race.server.store.Spares .load
  opened : race.server.memory.gate.closed = false
  tracks : race.server.memory.locks.Tracks c.key w.lock (total Phase.references w.phase)
    (total Phase.readers w.phase) (writing w.phase)
  stands : ∀ i, Job.Stands c.key (access i) (body i) (w.answer i) w.lock w.server.store race.server
    (w.phase i) (race.jobs i)
  alone : ∀ i j a, w.phase i = .holding .exclusive → w.phase j = .holding a → j = i
  agrees : (∀ i, w.phase i ≠ .holding .exclusive) →
    race.server.store.Alike w.server.store ∧ race.server.Backs c.key
  granted : ∀ i, i ∈ race.granted ↔ (w.phase i).granted = true
  once : race.granted.Nodup
  turns : (c.inTurn (race.granted.map calls)).run start =
    some (race.granted.map w.answer, w.server)
  rest : w.server.AtRest
  sound : w.server.Sound

end

variable {c : Context} {calls : Fin n → Call} {access : Fin n → Access}
  {body : Fin n → Nat → Job (Except Failure Reply)} {start t : Server}
  {race : Race n (Except Failure Reply)} {w : Shadow n} {i : Fin n}
  {next : Job (Except Failure Reply)}

/-- A step of one client other than a grant. It changes the lock for the others only when they are
away from it, and the store only when it has the lock alone. -/
theorem Serial.move (h : Serial c calls access body start race w) {phase : Phase} {lock : Nat}
    (hjob : Job.Stands c.key (access i) (body i) (w.answer i) lock w.server.store t phase next)
    (hfails : t.store.faults.fails = race.server.store.faults.fails)
    (hopened : t.memory.gate.closed = race.server.memory.gate.closed)
    (htracks : t.memory.locks.Tracks c.key lock
      (total Phase.references (Function.update w.phase i phase))
      (total Phase.readers (Function.update w.phase i phase))
      (writing (Function.update w.phase i phase)))
    (hlock : lock = w.lock ∨ total Phase.references w.phase = 0)
    (hstays : ∀ a, phase = .holding a → w.phase i = .holding a)
    (hgranted : phase.granted = (w.phase i).granted)
    (hothers : w.phase i = .holding .exclusive ∨
      race.server.store.Alike t.store ∧ (race.server.Backs c.key → t.Backs c.key))
    (hleft : w.phase i = .holding .exclusive → phase ≠ .holding .exclusive →
      t.store.Alike w.server.store ∧ t.Backs c.key) :
    Serial c calls access body start ⟨t, Function.update race.jobs i next, race.granted⟩
      { w with phase := Function.update w.phase i phase, lock := lock } := by
  refine ⟨fun k => hfails ▸ h.spares k, hopened.trans h.opened, htracks, fun j => ?_,
    alone_move h.alone hstays, fun hnone => ?_, fun j => ?_, h.once, h.turns, h.rest, h.sound⟩
  · by_cases hj : j = i
    · subst hj
      simpa only [Function.update_self] using hjob
    · simp only [Function.update_of_ne hj]
      refine (h.stands j).congr (fun href => ?_) fun hheld => ?_
      · rcases hlock with hlock | hzero
        · exact hlock
        · exact absurd (total_eq_zero hzero j) href
      · rcases hothers with halone | hsame
        · exact absurd (h.alone i j _ halone hheld) hj
        · exact ⟨hsame.1, .refl _, hsame.2⟩
  · dsimp only at hnone
    have hnow : phase ≠ .holding .exclusive := by
      have hi := hnone i
      rwa [Function.update_self] at hi
    by_cases halone : w.phase i = .holding .exclusive
    · exact hleft halone hnow
    · have hbefore : ∀ j, w.phase j ≠ .holding .exclusive := by
        intro j
        by_cases hj : j = i
        · exact hj ▸ halone
        · have hother := hnone j
          rwa [Function.update_of_ne hj] at hother
      obtain ⟨halike, hbacks⟩ := h.agrees hbefore
      rcases hothers with hexclusive | hsame
      · exact absurd hexclusive halone
      · exact ⟨hsame.1.symm.trans halike, hsame.2 hbacks⟩
  · rw [h.granted j]
    by_cases hj : j = i
    · subst hj
      simp only [Function.update_self, hgranted]
    · simp only [Function.update_of_ne hj]

/-- A step of one client that leaves it where it is, and the locks as they are. -/
theorem Serial.stay (h : Serial c calls access body start race w)
    (hjob : Job.Stands c.key (access i) (body i) (w.answer i) w.lock w.server.store t (w.phase i)
      next)
    (hlocks : t.memory.locks = race.server.memory.locks)
    (hfails : t.store.faults.fails = race.server.store.faults.fails)
    (hopened : t.memory.gate.closed = race.server.memory.gate.closed)
    (hothers : w.phase i = .holding .exclusive ∨
      race.server.store.Alike t.store ∧ (race.server.Backs c.key → t.Backs c.key)) :
    Serial c calls access body start ⟨t, Function.update race.jobs i next, race.granted⟩ w := by
  have hsame : Function.update w.phase i (w.phase i) = w.phase := Function.update_eq_self i w.phase
  have hmoved := h.move hjob hfails hopened (by rw [hsame, hlocks]; exact h.tracks) (.inl rfl)
    (fun _ ha => ha) rfl hothers fun ha hn => absurd ha hn
  rwa [hsame] at hmoved

/-- A step aside changes nothing for anybody else. -/
theorem Serial.aside (h : Serial c calls access body start race w)
    (hjob : Job.Stands c.key (access i) (body i) (w.answer i) w.lock w.server.store race.server
      (w.phase i) next) (hb : Action.Beside race.server t) :
    Serial c calls access body start ⟨t, Function.update race.jobs i next, race.granted⟩ w := by
  have halike : race.server.store.Alike t.store := hb.store ▸ .refl _
  have hbacks : race.server.Backs c.key → t.Backs c.key :=
    fun hs => hs.congr (by rw [hb.store]) hb.resident
  refine h.stay (hjob.congr (fun _ => rfl) fun _ => ⟨halike, .refl _, hbacks⟩) hb.locks
    (by rw [hb.store]) hb.opened (.inr ⟨halike, hbacks⟩)

/-- A client takes a reference to the lock. -/
theorem Serial.refer (h : Serial c calls access body start race w) (hi : w.phase i = .outside) :
    ∃ locks, race.server.memory.locks.refer c.key = (w.lock, locks) ∧
      Serial c calls access body start
        ⟨{ race.server with memory.locks := locks }, Function.update race.jobs i
          (.step (.enterLock w.lock (access i)) fun _ => body i w.lock), race.granted⟩
        { w with phase := Function.update w.phase i .waiting } := by
  obtain ⟨locks, hrefer, htracks⟩ := h.tracks.refer
  refine ⟨locks, hrefer, h.move .waiting rfl rfl ?_ (.inl rfl) nofun (by rw [hi]; rfl)
    (.inr ⟨.refl _, id⟩) fun ha => nomatch hi.symm.trans ha⟩
  have hreferences := total_update Phase.references w.phase i .waiting
  have hreaders := total_update Phase.readers w.phase i .waiting
  rw [hi] at hreferences hreaders
  simp only [Phase.references, Phase.readers, Nat.add_zero] at hreferences hreaders
  have hwriting : writing (Function.update w.phase i .waiting) = writing w.phase :=
    writing_update (fun ha => nomatch hi.symm.trans ha) nofun
  rw [hreferences, hreaders, hwriting]
  exact htracks

/-- Who has nothing to do with the lock any more may drop it, which it does when nobody else has
anything to do with it. -/
theorem Serial.release (h : Serial c calls access body start race w) (hi : w.phase i = .gone)
    (hjob : Job.Trails c.key (w.answer i) next) : ∃ lock,
      Serial c calls access body start
        ⟨{ race.server with memory.locks := race.server.memory.locks.releaseIdle c.key },
          Function.update race.jobs i next, race.granted⟩
        { w with lock := lock } := by
  have hsame : Function.update w.phase i .gone = w.phase := hi ▸ Function.update_eq_self i w.phase
  obtain ⟨lock, htracks, hlock⟩ := h.tracks.releaseIdle unreferred
  refine ⟨lock, ?_⟩
  have hmoved := h.move
    (t := { race.server with memory.locks := race.server.memory.locks.releaseIdle c.key })
    (.gone hjob) rfl rfl (by rw [hsame]; exact htracks) hlock nofun (by rw [hi])
    (.inr ⟨.refl _, id⟩) fun ha => nomatch hi.symm.trans ha
  rwa [hsame] at hmoved

/-- Who gives the lock back leaves the store to the next. -/
theorem Serial.leave {a : Access} (h : Serial c calls access body start race w)
    (hi : w.phase i = .holding a) (same : race.server.store.Alike w.server.store)
    (backed : race.server.Backs c.key) (hjob : Job.Trails c.key (w.answer i) next) :
    Serial c calls access body start
      ⟨{ race.server with memory.locks := race.server.memory.locks.leave w.lock a },
        Function.update race.jobs i next, race.granted⟩
      { w with phase := Function.update w.phase i .gone } := by
  refine h.move (.gone hjob) rfl rfl ?_ (.inl rfl) nofun (by rw [hi]; rfl) (.inr ⟨.refl _, id⟩)
    fun _ _ => ⟨same, backed⟩
  have hreferences := total_update Phase.references w.phase i .gone
  have hreaders := total_update Phase.readers w.phase i .gone
  rw [hi] at hreferences hreaders
  have htracks := h.tracks
  cases a with
  | shared =>
    simp only [Phase.references, Phase.readers, Nat.add_zero] at hreferences hreaders
    have hwriting : writing (Function.update w.phase i .gone) = writing w.phase :=
      writing_update (by rw [hi]; decide) nofun
    rw [← hreferences, ← hreaders] at htracks
    rw [hwriting]
    exact htracks.leave_shared
  | exclusive =>
    simp only [Phase.references, Phase.readers, Nat.add_zero] at hreferences hreaders
    have hgone : writing (Function.update w.phase i .gone) = false := by
      refine decide_eq_false (mt (Function.exists_update_iff w.phase fun _ p =>
        p = .holding .exclusive).mp ?_)
      rintro (hgone | ⟨j, hj, ha⟩)
      · cases hgone
      · exact hj (h.alone i j _ hi ha)
    rw [← hreferences, ← hreaders] at htracks
    rw [hgone]
    exact htracks.leave_exclusive

/-- A lock is granted when nobody has it alone, and to be had alone when nobody has it. -/
theorem Serial.enters (h : Serial c calls access body start race w) (hi : w.phase i = .waiting)
    {a : Access} {locks : LockTable} (he : race.server.memory.locks.enter? w.lock a = some locks) :
    (∀ j b, w.phase j = .holding b → b = .shared ∧ a = .shared) ∧
      locks.Tracks c.key w.lock
        (total Phase.references (Function.update w.phase i (.holding a)))
        (total Phase.readers (Function.update w.phase i (.holding a)))
        (writing (Function.update w.phase i (.holding a))) := by
  have haway := total_update Phase.references w.phase i .outside
  have hreferences := total_update Phase.references w.phase i (.holding a)
  have hreaders := total_update Phase.readers w.phase i (.holding a)
  rw [hi] at haway hreferences hreaders
  simp only [Phase.references, Phase.readers, Nat.add_zero, Nat.add_right_cancel_iff]
    at haway hreferences hreaders
  have htracks := h.tracks
  rw [← haway] at htracks
  rw [hreferences, ← haway, hreaders]
  cases a with
  | shared =>
    obtain ⟨hfree, hentered⟩ := htracks.enter_shared he
    have hwriting : writing (Function.update w.phase i (.holding .shared)) = writing w.phase :=
      writing_update (by rw [hi]; decide) (by decide)
    refine ⟨fun j b hj => ?_, hwriting ▸ hentered⟩
    cases b with
    | shared => exact ⟨rfl, rfl⟩
    | exclusive => exact absurd hj (not_writing hfree j)
  | exclusive =>
    obtain ⟨hfree, hnone, hentered⟩ := htracks.enter_exclusive he
    have hwriting : writing (Function.update w.phase i (.holding .exclusive)) = true :=
      decide_eq_true ⟨i, Function.update_self i _ w.phase⟩
    refine ⟨fun j b hj => ?_, ?_⟩
    · cases b with
      | shared =>
        have hreads := total_eq_zero hnone j
        rw [hj] at hreads
        cases hreads
      | exclusive => exact absurd hj (not_writing hfree j)
    · rw [hwriting, hnone]
      rw [hnone] at hentered
      exact hentered

/-- Who is granted the lock will answer as if it made its call after all that were granted the lock
before it. -/
theorem Serial.grant (h : Serial c calls access body start race w)
    (hvisits : Job.Visits c.key (access i) (body i) ((calls i).run c)) (hi : w.phase i = .waiting)
    {locks : LockTable} (he : race.server.memory.locks.enter? w.lock (access i) = some locks) :
    ∃ w', Serial c calls access body start
      ⟨{ race.server with memory.locks := locks }, Function.update race.jobs i (body i w.lock),
        race.granted ++ [i]⟩ w' := by
  obtain ⟨hothers, htracks⟩ := h.enters hi he
  have hfree : ∀ j, w.phase j ≠ .holding .exclusive := fun j hj => nomatch (hothers j _ hj).1
  obtain ⟨halike, hbacks⟩ := h.agrees hfree
  have hidle := h.rest.idle
  have hopen := h.rest.opened
  obtain ⟨answer, t, hrun, hholds⟩ := hvisits.run hidle hopen h.sound
    fun n => halike.fails ▸ h.spares n
  have hkept := ((calls i).run_orderly c).kept hidle (fun _ => hopen) hrun
  have hnew : i ∉ race.granted := by
    rw [h.granted i, hi]
    nofun
  have hunchanged : access i = .shared → w.server.store.Alike t.store := by
    intro hshared
    have hholds := hholds w.lock
    rw [hshared] at hholds
    exact hholds.shared
  have hanswers : ∀ j ∈ race.granted, Function.update w.answer i answer j = w.answer j :=
    fun j hj => Function.update_of_ne (fun hji : j = i => hnew (hji ▸ hj)) _ _
  refine ⟨⟨Function.update w.phase i (.holding (access i)), Function.update w.answer i answer,
    w.lock, t⟩, h.spares, h.opened, htracks, fun j => ?_, alone_grant hothers, fun hnone => ?_,
    fun j => ?_, ?_, ?_, ⟨hkept.locks, hkept.gate.trans h.rest.free⟩, hkept.sound h.sound⟩
  · by_cases hj : j = i
    · subst hj
      simp only [Function.update_self]
      exact .holding ⟨true, (hholds w.lock).alike halike.symm (.refl _), fun _ => hbacks⟩
    · simp only [Function.update_of_ne hj]
      exact (h.stands j).congr (fun _ => rfl) fun hheld =>
        ⟨.refl _, hunchanged (hothers j _ hheld).2, id⟩
  · have hshared : access i = .shared := by
      have hnow := hnone i
      dsimp only at hnow
      rw [Function.update_self] at hnow
      cases ha : access i with
      | shared => rfl
      | exclusive => exact absurd (congrArg Phase.holding ha) hnow
    exact ⟨halike.trans (hunchanged hshared), hbacks⟩
  · rw [List.mem_append, List.mem_singleton, h.granted j]
    by_cases hj : j = i
    · subst hj
      simp only [Function.update_self, Phase.granted, or_true]
    · simp only [Function.update_of_ne hj, hj, or_false]
  · exact List.nodup_append.mpr ⟨h.once, List.nodup_singleton i, by
      rintro a ha b hb rfl
      exact hnew (List.mem_singleton.mp hb ▸ ha)⟩
  · have hturn := Context.inTurn_append h.turns hrun
    rw [List.map_append, List.map_append, List.map_congr_left hanswers]
    simpa only [List.map_cons, List.map_nil, Function.update_self] using hturn

theorem Serial.turn {race' : Race n (Except Failure Reply)}
    (h : Serial c calls access body start race w)
    (hvisits : ∀ i, Job.Visits c.key (access i) (body i) ((calls i).run c))
    (ht : race.turn i = some race') : ∃ w', Serial c calls access body start race' w' := by
  unfold Race.turn at ht
  split at ht
  · cases ht
  · rename_i action next hjob
    obtain ⟨⟨r, t⟩, hp, rfl⟩ := Option.map_eq_some_iff.mp ht
    have hstands := h.stands i
    rw [hjob] at hstands
    generalize hphase : w.phase i = phase at hstands
    have haside : action.Aside →
        Job.Stands c.key (access i) (body i) (w.answer i) w.lock w.server.store race.server phase
          (next r) →
        Serial c calls access body start ⟨t, Function.update race.jobs i (next r),
          if action.grants then race.granted ++ [i] else race.granted⟩ w := by
      intro beside hnext
      obtain ⟨r', t', hp', hb⟩ := beside.performs h.opened
      rw [hp] at hp'
      cases hp'
      rw [beside.plain]
      exact h.aside (hphase ▸ hnext) hb
    cases hstands with
    | outside heads =>
      cases heads with
      | aside beside rest => exact ⟨w, haside beside (.outside (rest r))⟩
      | refer =>
        obtain ⟨locks, hrefer, hserial⟩ := h.refer hphase
        simp only [Action.perform?, hrefer] at hp
        cases hp
        exact ⟨_, hserial⟩
    | waiting =>
      obtain ⟨locks, henter, he⟩ := Option.map_eq_some_iff.mp hp
      cases he
      exact h.grant (hvisits i) hphase henter
    | holding held =>
      cases held.goes h.spares h.opened with
      | stays plain performed inside held =>
        rw [hp] at performed
        cases performed
        rw [plain]
        refine ⟨w, h.stay (hphase ▸ .holding held) inside.locks inside.fails inside.opened ?_⟩
        cases ha : access i with
        | shared => exact .inr (inside.shared ha)
        | exclusive => exact .inl (hphase.trans (congrArg _ ha))
      | leaves same backed trails =>
        cases hp
        exact ⟨_, h.leave hphase same backed trails⟩
    | gone trails =>
      cases trails with
      | aside beside rest => exact ⟨w, haside beside (.gone (rest r))⟩
      | releaseIdle rest =>
        cases hp
        obtain ⟨lock, hserial⟩ := h.release hphase rest
        exact ⟨_, hserial⟩

theorem Serial.play {schedule : List (Fin n)} {race' : Race n (Except Failure Reply)}
    (h : Serial c calls access body start race w)
    (hvisits : ∀ i, Job.Visits c.key (access i) (body i) ((calls i).run c))
    (hp : race.play schedule = some race') : ∃ w', Serial c calls access body start race' w' := by
  induction schedule generalizing race w with
  | nil =>
    cases hp
    exact ⟨w, h⟩
  | cons i rest ih =>
    obtain ⟨between, hturn, hp⟩ := Option.bind_eq_some_iff.mp hp
    obtain ⟨_, hnext⟩ := h.turn hvisits hturn
    exact ih hnext hp

theorem Serial.begins {s : Server}
    (hvisits : ∀ i, Job.Visits c.key (access i) (body i) ((calls i).run c)) (hs : s.AtRest)
    (hsound : s.Sound) (hl : s.store.Spares .load) :
    Serial c calls access body s (Race.start c calls s)
      ⟨fun _ => .outside, fun _ => .ok .finished, s.memory.locks.fresh, s⟩ := by
  have hnone : ∀ count : Phase → Nat, count .outside = 0 →
      total count (fun _ : Fin n => .outside) = 0 :=
    fun count hcount => Finset.sum_eq_zero fun _ _ => hcount
  have hwriting : writing (fun _ : Fin n => .outside) = false :=
    decide_eq_false fun ⟨_, hi⟩ => nomatch hi
  refine ⟨hl, hs.opened, ?_, fun i => .outside (hvisits i).heads, fun _ _ _ hi => (nomatch hi),
    fun _ => ⟨.refl _, hsound.backs c.key⟩, fun i => ⟨nofun, nofun⟩, .nil, rfl, hs, hsound⟩
  rw [hnone _ rfl, hnone _ rfl, hwriting]
  have hidle : s.memory.locks = { fresh := s.memory.locks.fresh } := hs.idle
  change s.memory.locks.Tracks _ _ _ _ _
  rw [hidle]
  exact .idle _

/-- Who is done had the lock, and answers what it was to answer since. -/
theorem Serial.answered (h : Serial c calls access body start race w)
    {answer : Except Failure Reply} (hi : race.jobs i = .done answer) :
    w.phase i = .gone ∧ w.answer i = answer := by
  have hstands := h.stands i
  rw [hi] at hstands
  generalize w.phase i = phase at hstands ⊢
  cases hstands with
  | outside heads => cases heads
  | holding held =>
    obtain ⟨_, hholds, _⟩ := held.told
    cases hholds
  | gone trails =>
    generalize w.answer i = told at trails ⊢
    cases trails
    exact ⟨rfl, rfl⟩

/-- Only who waits for the lock may have to wait. -/
theorem Serial.goes (h : Serial c calls access body start race w)
    (hi : ∀ answer, race.jobs i ≠ .done answer) (hwaits : w.phase i ≠ .waiting) :
    ∃ next, race.turn i = some next := by
  have haside : ∀ {action : Action} {next : action.Result → Job (Except Failure Reply)},
      race.jobs i = .step action next → action.Aside → ∃ next, race.turn i = some next := by
    intro action next hjob beside
    obtain ⟨r, t, hp, _⟩ := beside.performs h.opened
    exact race.goes_step hjob hp
  have hstands := h.stands i
  generalize hjob : race.jobs i = job at hstands
  generalize w.phase i = phase at hstands hwaits
  cases hstands with
  | outside heads =>
    cases heads with
    | aside beside _ => exact haside hjob beside
    | refer => exact race.goes_step hjob rfl
  | waiting => exact absurd rfl hwaits
  | holding held =>
    cases held.goes h.spares h.opened with
    | stays _ performed => exact race.goes_step hjob performed
    | leaves => exact race.goes_step hjob rfl
  | gone trails =>
    generalize w.answer i = answer at trails
    cases trails with
    | done => exact absurd hjob (hi answer)
    | aside beside _ => exact haside hjob beside
    | releaseIdle _ => exact race.goes_step hjob rfl

/-- As long as not all are done somebody can go on. -/
theorem Serial.goes_on (h : Serial c calls access body start race w)
    (hi : ∀ answer, race.jobs i ≠ .done answer) : ∃ j next, race.turn j = some next := by
  by_cases hheld : ∃ j a, w.phase j = .holding a
  · obtain ⟨j, a, hj⟩ := hheld
    exact ⟨j, h.goes (fun answer hdone => nomatch hj.symm.trans (h.answered hdone).1) (hj ▸ nofun)⟩
  · by_cases hwaits : w.phase i = .waiting
    · have hreaders : total Phase.readers w.phase = 0 := by
        refine Finset.sum_eq_zero fun j _ => ?_
        cases hphase : w.phase j with
        | holding a => exact absurd ⟨j, a, hphase⟩ hheld
        | _ => rfl
      have hwriting : writing w.phase = false := decide_eq_false fun ⟨j, hj⟩ => hheld ⟨j, _, hj⟩
      have haway := total_update Phase.references w.phase i .outside
      rw [hwaits] at haway
      simp only [Phase.references, Nat.add_zero] at haway
      have htracks := h.tracks
      rw [hreaders, hwriting, ← haway] at htracks
      obtain ⟨locks, henter⟩ := htracks.enters (access i)
      have hstands := h.stands i
      rw [hwaits] at hstands
      generalize hjob : race.jobs i = job at hstands
      cases hstands
      have hp : Action.perform? (.enterLock w.lock (access i)) race.server =
          some ((), { race.server with memory.locks := locks }) := by
        simp only [Action.perform?, henter, Option.map_some]
      exact ⟨i, race.goes_step hjob hp⟩
    · exact ⟨i, h.goes hi hwaits⟩

/-- Calls that each take the lock of the context once come to what they come to when they are made
one after the other, in the order in which they were granted the lock. -/
theorem serial {s : Server} {schedule : List (Fin n)} {answers : Fin n → Except Failure Reply}
    (hvisits : ∀ i, ((calls i).run c).Visits c.key) (hs : s.AtRest) (hsound : s.Sound)
    (hl : s.store.Spares .load) (hp : (Race.start c calls s).play schedule = some race)
    (hdone : ∀ i, race.jobs i = .done (answers i)) :
    race.granted.Perm (List.finRange n) ∧ ∃ t,
      (c.inTurn (race.granted.map calls)).run s = some (race.granted.map answers, t) ∧
        t.store.disk = race.server.store.disk := by
  choose access body hvisits using hvisits
  obtain ⟨w, hserial⟩ := (Serial.begins hvisits hs hsound hl).play hvisits hp
  have hgone := fun i => (hserial.answered (hdone i)).1
  have hanswers : w.answer = answers := funext fun i => (hserial.answered (hdone i)).2
  have halike := (hserial.agrees fun i hi => nomatch (hgone i).symm.trans hi).1
  have hall : ∀ i, i ∈ race.granted := by
    intro i
    rw [hserial.granted i, hgone i]
    rfl
  refine ⟨(List.perm_ext_iff_of_nodup hserial.once (List.nodup_finRange n)).mpr fun i =>
    ⟨fun _ => List.mem_finRange i, fun _ => hall i⟩, w.server, ?_, halike.disk.symm⟩
  rw [← hanswers]
  exact hserial.turns

/-- No race gets stuck. -/
theorem goes_on {s : Server} {schedule : List (Fin n)}
    (hvisits : ∀ i, ((calls i).run c).Visits c.key) (hs : s.AtRest) (hsound : s.Sound)
    (hl : s.store.Spares .load) (hp : (Race.start c calls s).play schedule = some race)
    (hi : ∀ answer, race.jobs i ≠ .done answer) : ∃ j next, race.turn j = some next := by
  choose access body hvisits using hvisits
  obtain ⟨_, hserial⟩ := (Serial.begins hvisits hs hsound hl).play hvisits hp
  exact hserial.goes_on hi

end Race

end Naming
