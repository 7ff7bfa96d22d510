import Naming.Proofs.Locks

namespace Naming

variable {n : Nat}

/-- A table of locks with what its users have of them. A user that has several references and guards
at once counts for several. -/
structure Keepers (n : Nat) where
  locks : LockTable := {}
  grips : Fin n → Grip := fun _ => .free

/-- What users do with the locks. A reference can become the guard, or be kept while there is a
guard beside it. -/
inductive Handling (n : Nat) where
  | refer (i : Fin n) (key : ContextKey)
  | enter (i : Fin n) (access : Access)
  | enterBeside (i j : Fin n) (access : Access)
  | leave (i : Fin n)
  | forget (i : Fin n)
  | releaseIdle (key : ContextKey)

namespace Keepers

/-- Does what a user wants to do. Who has to wait, or has nothing to do it with, does nothing. -/
def turn (s : Keepers n) : Handling n → Keepers n
  | .refer i key =>
    match s.grips i with
    | .free =>
      { locks := (s.locks.refer key).2
        grips := Function.update s.grips i (.asks key (s.locks.refer key).1) }
    | _ => s
  | .enter i access =>
    match s.grips i with
    | .asks key id =>
      match s.locks.enter? id access with
      | some locks => ⟨locks, Function.update s.grips i (.holds key id access)⟩
      | none => s
    | _ => s
  | .enterBeside i j access =>
    match s.grips i, s.grips j with
    | .asks key id, .free =>
      -- the guard counts as a reference of its own
      match (s.locks.refer key).2.enter? id access with
      | some locks => ⟨locks, Function.update s.grips j (.holds key id access)⟩
      | none => s
    | _, _ => s
  | .leave i =>
    match s.grips i with
    | .holds _ id access => ⟨s.locks.leave id access, Function.update s.grips i .free⟩
    | _ => s
  | .forget i =>
    match s.grips i with
    | .asks _ id => ⟨s.locks.forget id, Function.update s.grips i .free⟩
    | _ => s
  | .releaseIdle key => { s with locks := s.locks.releaseIdle key }

def play (s : Keepers n) (handlings : List (Handling n)) : Keepers n := handlings.foldl turn s

end Keepers

namespace Grip

variable {g : Grip} {grips : Fin n → Grip} {key : ContextKey} {id : Nat} {access : Access}

theorem readers_eq_zero_iff : g.readers key = 0 ↔ ∀ id, g ≠ .holds key id .shared := by
  cases g with
  | free | asks => simp [readers]
  | holds other id access => cases access <;> simp [readers]

theorem writers_eq_zero_iff : g.writers key = 0 ↔ ∀ id, g ≠ .holds key id .exclusive := by
  cases g with
  | free | asks => simp [writers]
  | holds other id access => cases access <;> simp [writers]

/-- Nobody has the lock of this key in a way that rules out this access to it. -/
def Lets (grips : Fin n → Grip) (key : ContextKey) (access : Access) : Prop :=
  ∀ i id other, grips i = .holds key id other → access = .shared ∧ other = .shared

theorem lockOf_isFree_iff :
    (lockOf grips key id).isFree access = true ↔ Lets grips key access := by
  have hreaders : ∑ i, (grips i).readers key = 0 ↔ ∀ i id, grips i ≠ .holds key id .shared := by
    simp only [Finset.sum_eq_zero_iff, Finset.mem_univ, true_imp_iff, readers_eq_zero_iff]
  have hwriters : ∑ i, (grips i).writers key = 0 ↔ ∀ i id, grips i ≠ .holds key id .exclusive := by
    simp only [Finset.sum_eq_zero_iff, Finset.mem_univ, true_imp_iff, writers_eq_zero_iff]
  cases access with
  | shared =>
    simp only [Lock.isFree, lockOf, Bool.not_eq_true', decide_eq_false_iff_not, not_not, hwriters]
    refine ⟨fun h i m other hi => ?_, fun h i m hi => ?_⟩
    · cases other with
      | shared => exact ⟨rfl, rfl⟩
      | exclusive => exact absurd hi (h i m)
    · cases (h i m _ hi).2
  | exclusive =>
    simp only [Lock.isFree, lockOf, Bool.and_eq_true, Bool.not_eq_true', decide_eq_false_iff_not,
      not_not, beq_iff_eq, hwriters, hreaders]
    refine ⟨fun h i m other hi => ?_, fun h => ⟨fun i m hi => ?_, fun i m hi => ?_⟩⟩
    · cases other with
      | shared => exact absurd hi (h.2 i m)
      | exclusive => exact absurd hi (h.1 i m)
    · cases (h i m _ hi).1
    · cases (h i m _ hi).1

end Grip

namespace LockTable.Counts

variable {t u : LockTable} {grips : Fin n → Grip} {i j : Fin n} {key other : ContextKey}
  {id m : Nat} {access : Access}

theorem forget (h : t.Counts grips) (hi : grips i = .asks key id) :
    (t.forget id).Counts (Function.update grips i .free) := by
  have hk := h.used i key id (hi ▸ rfl)
  have hfair := h.fair key
  have hasks : (grips i).At key 1 0 0 := hi ▸ Grip.at_asks key id
  obtain ⟨hreferences, hreaders, hwriters⟩ := hasks.moved (Grip.at_free key)
  refine h.change (fun _ => rfl) hk ?_ nofun ?_ ?_
  · rw [hi]
    rintro other m ⟨⟩
    rfl
  · simp only [Grip.lockOf, Lock.mk.injEq, decide_eq_decide, true_and]
    omega
  · omega

/-- Another reference to a lock that somebody refers to is one to the same lock. -/
theorem refer_again (h : t.Counts grips) (hi : (grips i).lock? = some (key, id)) :
    t.refer key = (id, (t.refer key).2) := by
  have hk := h.used i key id hi
  simp only [LockTable.refer, hk]

theorem enterBeside (h : t.Counts grips) (hi : grips i = .asks key id) (hj : grips j = .free)
    (he : (t.refer key).2.enter? id access = some u) :
    u.Counts (Function.update grips j (.holds key id access)) := by
  have hlock : (grips i).lock? = some (key, id) := hi ▸ rfl
  have hreferred := h.refer hj (h.refer_again hlock)
  have hentered := hreferred.enter (Function.update_self ..) he
  rwa [Function.update_idem] at hentered

/-- A user gets the lock that it refers to as soon as nobody has it in the way. -/
theorem enter_iff (h : t.Counts grips) (hi : (grips i).lock? = some (key, id)) :
    (t.enter? id access).isSome = true ↔ Grip.Lets grips key access := by
  have hfound := h.lock key id (h.used i key id hi)
  have hfree : (Grip.lockOf grips key id).isFree access = true ↔ Grip.Lets grips key access :=
    Grip.lockOf_isFree_iff
  rw [← hfree]
  simp only [LockTable.enter?, hfound]
  split
  · simp [*]
  · simp [*]

/-- Nothing changes about a lock that somebody has to do with when idle locks are dropped. -/
theorem releaseIdle_same (h : t.Counts grips) (hi : (grips i).lock? = some (key, id))
    (other : ContextKey) :
    (t.releaseIdle other).table.lookup key = some id ∧
      (t.releaseIdle other).find? id = t.find? id := by
  have hk := h.used i key id hi
  have hkept := (h.releaseIdle other).used i key id hi
  refine ⟨hkept, ?_⟩
  rw [h.lock key id hk, (h.releaseIdle other).lock key id hkept]

/-- A lock that nobody has to do with is dropped. -/
theorem releaseIdle_gone (h : t.Counts grips) (hnone : ∀ i id, (grips i).lock? ≠ some (key, id)) :
    (t.releaseIdle key).table.lookup key = none := by
  have hzero : ∑ i, (grips i).references key = 0 :=
    Finset.sum_eq_zero fun i _ => (Grip.at_away (hnone i)).references
  unfold LockTable.releaseIdle
  split
  · assumption
  · rename_i id hk
    rw [h.lock key id hk]
    simp only [Grip.lockOf, hzero, if_true]
    rw [lookup_filter_ne, if_pos rfl]

end LockTable.Counts

namespace Keepers

variable {s : Keepers n}

/-- What a user does leaves the table with what its users have of the locks. -/
theorem turn_counts (h : s.locks.Counts s.grips) (handling : Handling n) :
    (s.turn handling).locks.Counts (s.turn handling).grips := by
  cases handling with
  | refer i key =>
    simp only [turn]
    split
    · exact h.refer ‹_› rfl
    · exact h
  | enter i access =>
    simp only [turn]
    split
    · split
      · exact h.enter ‹_› ‹_›
      · exact h
    · exact h
  | enterBeside i j access =>
    simp only [turn]
    split
    · split
      · exact h.enterBeside ‹_› ‹_› ‹_›
      · exact h
    · exact h
  | leave i =>
    simp only [turn]
    split
    · exact h.leave ‹_›
    · exact h
  | forget i =>
    simp only [turn]
    split
    · exact h.forget ‹_›
    · exact h
  | releaseIdle key => exact h.releaseIdle key

theorem play_counts (h : s.locks.Counts s.grips) (handlings : List (Handling n)) :
    (s.play handlings).locks.Counts (s.play handlings).grips := by
  induction handlings generalizing s with
  | nil => exact h
  | cons handling rest ih => exact ih (turn_counts h handling)

/-- Whoever refers to a lock or has it finds it under its key in the table, although locks are
dropped and made anew in between; so two users of one key never have different locks. -/
theorem locks_of_play {handlings : List (Handling n)} (hs : play {} handlings = s) :
    (∀ i key id, (s.grips i).lock? = some (key, id) →
      s.locks.table.lookup key = some id ∧
      s.locks.find? id = some (Grip.lockOf s.grips key id) ∧
      (∀ access, (s.locks.enter? id access).isSome = true ↔ Grip.Lets s.grips key access) ∧
      ∀ other, (s.locks.releaseIdle other).table.lookup key = some id ∧
        (s.locks.releaseIdle other).find? id = s.locks.find? id) ∧
    (∀ i j key other id, (s.grips i).lock? = some (key, id) →
      (s.grips j).lock? = some (other, id) → key = other) ∧
    (∀ i j key id m access, s.grips i = .holds key id .exclusive →
      s.grips j = .holds key m access → j = i) ∧
    ∀ key, (∀ i id, (s.grips i).lock? ≠ some (key, id)) →
      (s.locks.releaseIdle key).table.lookup key = none := by
  have hstart : ({} : Keepers n).locks.Counts ({} : Keepers n).grips := LockTable.Counts.idle rfl
  have h : s.locks.Counts s.grips := hs ▸ play_counts hstart handlings
  refine ⟨fun i key id hi => ?_, fun i j key other id hi hj => ?_,
    fun i j key id m access hi hj => h.alone hi hj, fun key => h.releaseIdle_gone⟩
  · have hk := h.used i key id hi
    exact ⟨hk, h.lock key id hk, fun access => h.enter_iff hi, h.releaseIdle_same hi⟩
  · exact h.apart key other id (h.used i key id hi) (h.used j other id hj)

/-- A lock is used through a kept reference, dropped and made anew under another number. One user
has it alone, and another waits. -/
theorem locks_of_play_made_anew :
    let key : ContextKey := ⟨"NC0"⟩
    let handlings : List (Handling 3) :=
      [.refer 0 key, .enterBeside 0 1 .exclusive, .releaseIdle key, .leave 1, .forget 0,
        .releaseIdle key, .refer 2 ⟨"NC1"⟩, .refer 1 key, .enter 1 .exclusive, .refer 0 key,
        .enter 0 .shared, .releaseIdle key]
    let s := play {} handlings
    s.grips 0 = .asks key 2 ∧ s.grips 1 = .holds key 2 .exclusive ∧
      s.locks.table.lookup key = some 2 ∧ (s.locks.enter? 2 .shared).isSome = false := by
  intro key handlings s
  have hasks : s.grips 0 = .asks key 2 := by decide +kernel
  have hholds : s.grips 1 = .holds key 2 .exclusive := by decide +kernel
  have hplayed : play {} handlings = s := rfl
  obtain ⟨hlock, _⟩ := locks_of_play hplayed
  obtain ⟨hlookup, _, henter, _⟩ := hlock 0 key 2 (hasks ▸ rfl)
  refine ⟨hasks, hholds, hlookup, ?_⟩
  rw [Bool.eq_false_iff, Ne, henter]
  intro hlets
  cases (hlets 1 2 .exclusive hholds).2

end Keepers

end Naming
