import Mathlib.Algebra.BigOperators.Fin
import Mathlib.Algebra.Order.BigOperators.Group.Finset
import Naming.Proofs.Activations

namespace Naming

variable {n : Nat}

/-- What counts together for many clients changes with what counts for one of them. -/
theorem sum_update {α : Type} (count : α → Nat) (all : Fin n → α) (i : Fin n) (a : α) :
    ∑ j, count (Function.update all i a j) + count (all i) = ∑ j, count (all j) + count a := by
  have hcounts : (fun j => count (Function.update all i a j)) =
      Function.update (fun j => count (all j)) i (count a) :=
    funext fun j => Function.apply_update (fun _ => count) all i a j
  have hrest :=
    Finset.sum_eq_add_sum_sdiff_singleton_of_mem (Finset.mem_univ i) fun j => count (all j)
  rw [hcounts, Finset.sum_update_of_mem (Finset.mem_univ i), hrest]
  omega

/-- What a client has of the locks: nothing, a reference to the lock of a key, or that lock. -/
inductive Grip where
  | free
  | asks (key : ContextKey) (id : Nat)
  | holds (key : ContextKey) (id : Nat) (access : Access)
deriving DecidableEq

namespace Grip

/-- The key and the number of the lock that a client has to do with. -/
def lock? : Grip → Option (ContextKey × Nat)
  | free => none
  | asks key id | holds key id _ => some (key, id)

def references (key : ContextKey) : Grip → Nat
  | free => 0
  | asks other _ | holds other _ _ => if other = key then 1 else 0

def readers (key : ContextKey) : Grip → Nat
  | holds other _ .shared => if other = key then 1 else 0
  | _ => 0

def writers (key : ContextKey) : Grip → Nat
  | holds other _ .exclusive => if other = key then 1 else 0
  | _ => 0

/-- What a client counts for at the lock of a key. -/
structure At (g : Grip) (key : ContextKey) (references readers writers : Nat) : Prop where
  references : g.references key = references
  readers : g.readers key = readers
  writers : g.writers key = writers

variable {g : Grip} {key other : ContextKey} {id : Nat}

theorem at_free (key : ContextKey) : free.At key 0 0 0 := ⟨rfl, rfl, rfl⟩

theorem at_asks (key : ContextKey) (id : Nat) : (asks key id).At key 1 0 0 := by
  constructor <;> simp [references, readers, writers]

theorem at_shared (key : ContextKey) (id : Nat) : (holds key id .shared).At key 1 1 0 := by
  constructor <;> simp [references, readers, writers]

theorem at_exclusive (key : ContextKey) (id : Nat) : (holds key id .exclusive).At key 1 0 1 := by
  constructor <;> simp [references, readers, writers]

/-- Who has nothing to do with a lock does not count there. -/
theorem at_away (h : ∀ id, g.lock? ≠ some (key, id)) : g.At key 0 0 0 := by
  cases g with
  | free => exact at_free key
  | asks other id =>
    have hne : other ≠ key := fun he => h id (he ▸ rfl)
    constructor <;> simp [references, readers, writers, hne]
  | holds other id access =>
    have hne : other ≠ key := fun he => h id (he ▸ rfl)
    cases access <;> constructor <;> simp [references, readers, writers, hne]

/-- What counts at a lock when one client has something else of it. -/
theorem At.moved {grips : Fin n → Grip} {i : Fin n} {a b c a' b' c' : Nat}
    (hi : (grips i).At key a b c) (hg : g.At key a' b' c') :
    ∑ j, (Function.update grips i g j).references key + a = ∑ j, (grips j).references key + a' ∧
      ∑ j, (Function.update grips i g j).readers key + b = ∑ j, (grips j).readers key + b' ∧
      ∑ j, (Function.update grips i g j).writers key + c = ∑ j, (grips j).writers key + c' := by
  have hreferences := sum_update (Grip.references key) grips i g
  have hreaders := sum_update (Grip.readers key) grips i g
  have hwriters := sum_update (Grip.writers key) grips i g
  rw [hi.references, hg.references] at hreferences
  rw [hi.readers, hg.readers] at hreaders
  rw [hi.writers, hg.writers] at hwriters
  exact ⟨hreferences, hreaders, hwriters⟩

/-- The lock of a key when each client has of the locks what its grip says. -/
def lockOf (grips : Fin n → Grip) (key : ContextKey) (id : Nat) : Lock where
  id := id
  references := ∑ i, (grips i).references key
  readers := ∑ i, (grips i).readers key
  writer := decide (∑ i, (grips i).writers key ≠ 0)

end Grip

namespace LockTable

variable {t u : LockTable} {key : ContextKey} {id other : Nat}

theorem find?_update {change : Lock → Lock} (hid : ∀ l, (change l).id = l.id) :
    (t.update id change).find? other =
      if other = id then (t.find? other).map change else t.find? other := by
  have hsame : (fun l : Lock => decide (l.id = other)) ∘
      (fun l => if l.id = id then change l else l) = fun l => decide (l.id = other) := by
    funext l
    simp only [Function.comp_apply]
    split
    · rw [hid]
    · rfl
  unfold find? update
  rw [List.find?_map, hsame]
  cases hfound : t.locks.find? fun l => decide (l.id = other) with
  | none => simp
  | some l =>
    have hl : l.id = other := by simpa using List.find?_some hfound
    simp only [Option.map_some, hl]
    split <;> rfl

theorem find?_drop {locks : List Lock} (hne : other ≠ id) :
    (locks.filter (·.id ≠ id)).find? (·.id = other) = locks.find? (·.id = other) := by
  rw [List.find?_filter]
  congr 1
  funext l
  by_cases hl : l.id = other
  · simp [hl, hne]
  · simp [hl]

/-- The table with a lock for this key, which nobody refers to if it was not there before. -/
def opened (t : LockTable) (key : ContextKey) : LockTable :=
  match t.table.lookup key with
  | some _ => t
  | none =>
    { table := (key, t.fresh) :: t.table
      locks := { id := t.fresh } :: t.locks
      fresh := t.fresh + 1 }

/-- The table when each client has of the locks what its grip says: a client that has to do with a
lock finds it under its key, and who has a lock alone is alone. -/
structure Counts (t : LockTable) (grips : Fin n → Grip) : Prop where
  lock : ∀ key id, t.table.lookup key = some id → t.find? id = some (Grip.lockOf grips key id)
  used : ∀ i key id, (grips i).lock? = some (key, id) → t.table.lookup key = some id
  apart : ∀ key other id, t.table.lookup key = some id → t.table.lookup other = some id →
    key = other
  below : ∀ l ∈ t.locks, l.id < t.fresh
  fair : ∀ key, ∑ i, (grips i).writers key = 0 ∨
    ∑ i, (grips i).writers key = 1 ∧ ∑ i, (grips i).readers key = 0

namespace Counts

variable {grips : Fin n → Grip} {i j : Fin n} {g : Grip} {access : Access}

theorem idle (h : t.Idle) : t.Counts fun _ : Fin n => .free := by
  have ht : t = { fresh := t.fresh } := h
  rw [ht]
  exact ⟨nofun, nofun, nofun, nofun, fun key => .inl (Finset.sum_eq_zero fun _ _ => rfl)⟩

theorem lt_fresh (h : t.Counts grips) (hk : t.table.lookup key = some id) : id < t.fresh := by
  have hfound := h.lock key id hk
  exact h.below _ (List.mem_of_find?_eq_some hfound)

/-- A lock that is not there is nobody's. -/
theorem unused (h : t.Counts grips) (hk : t.table.lookup key = none) (id : Nat) :
    Grip.lockOf grips key id = { id := id } := by
  have haway : ∀ i, (grips i).At key 0 0 0 := fun i =>
    Grip.at_away fun id hlock => nomatch hk.symm.trans (h.used i key id hlock)
  have hreferences := Finset.sum_eq_zero (s := Finset.univ) fun i _ => (haway i).references
  have hreaders := Finset.sum_eq_zero (s := Finset.univ) fun i _ => (haway i).readers
  have hwriters := Finset.sum_eq_zero (s := Finset.univ) fun i _ => (haway i).writers
  simp only [Grip.lockOf, hreferences, hreaders, hwriters]
  rfl

/-- Who has a lock alone is the only one who has it. -/
theorem alone (h : t.Counts grips) {id' : Nat} (hi : grips i = .holds key id .exclusive)
    (hj : grips j = .holds key id' access) : j = i := by
  by_contra hne
  have hwriters := sum_update (Grip.writers key) grips i .free
  have hleft := Finset.single_le_sum
    (f := fun k => (Function.update grips i .free k).writers key) (fun _ _ => Nat.zero_le _)
    (Finset.mem_univ j)
  have hreads := Finset.single_le_sum (f := fun k => (grips k).readers key)
    (fun _ _ => Nat.zero_le _) (Finset.mem_univ j)
  rw [hi, (Grip.at_exclusive key id).writers, (Grip.at_free key).writers] at hwriters
  rw [Function.update_of_ne hne, hj] at hleft
  rw [hj] at hreads
  have hfair := h.fair key
  cases access with
  | shared =>
    rw [(Grip.at_shared key id').readers] at hreads
    omega
  | exclusive =>
    rw [(Grip.at_exclusive key id').writers] at hleft
    omega

theorem alone_exclusive (h : t.Counts grips) {id' : Nat} (hi : grips i = .holds key id .exclusive)
    (hj : grips j = .holds key id' access) : j = i ∧ access = .exclusive := by
  obtain rfl := h.alone hi hj
  rw [hi] at hj
  cases hj
  exact ⟨rfl, rfl⟩

/-- Where the lock of a key can be shared, nobody has it alone. -/
theorem not_alone (h : t.Counts grips) (hf : t.isFree key .shared = true) (i : Fin n) (id : Nat) :
    grips i ≠ .holds key id .exclusive := by
  intro hi
  have hk := h.used i key id (hi ▸ rfl)
  have hone := Finset.single_le_sum (f := fun j => (grips j).writers key)
    (fun _ _ => Nat.zero_le _) (Finset.mem_univ i)
  rw [hi, (Grip.at_exclusive key id).writers] at hone
  have hwriter : ∑ j, (grips j).writers key ≠ 0 := by omega
  simp [LockTable.isFree, hk, h.lock key id hk, Lock.isFree, Grip.lockOf, hwriter] at hf

theorem opened (h : t.Counts grips) (key : ContextKey) : (t.opened key).Counts grips := by
  unfold LockTable.opened
  split
  · exact h
  · rename_i hk
    have hlookup : ∀ other id, ((key, t.fresh) :: t.table).lookup other = some id →
        other = key ∧ id = t.fresh ∨ other ≠ key ∧ t.table.lookup other = some id := by
      intro other id ho
      rw [lookup_cons_if] at ho
      split at ho
      · rename_i he
        exact .inl ⟨he, (Option.some.inj ho).symm⟩
      · rename_i hne
        exact .inr ⟨hne, ho⟩
    refine ⟨fun other id ho => ?_, fun i other id ho => ?_, fun a b id ha hb => ?_, ?_, h.fair⟩
    · rcases hlookup other id ho with ⟨rfl, rfl⟩ | ⟨_, ho⟩
      · rw [h.unused hk]
        simp [find?]
      · have hne : t.fresh ≠ id := (h.lt_fresh ho).ne'
        have hfound := h.lock other id ho
        simpa [find?, hne] using hfound
    · have hused := h.used i other id ho
      rw [lookup_cons_if, if_neg fun he => ?_]
      · exact hused
      · rw [he, hk] at hused
        cases hused
    · rcases hlookup a id ha with ⟨hnew, he⟩ | ⟨_, hold⟩
      · rcases hlookup b id hb with ⟨hnew', _⟩ | ⟨_, hold'⟩
        · exact hnew.trans hnew'.symm
        · exact absurd he (h.lt_fresh hold').ne
      · rcases hlookup b id hb with ⟨_, he⟩ | ⟨_, hold'⟩
        · exact absurd he (h.lt_fresh hold).ne
        · exact h.apart a b id hold hold'
    · intro l hl
      rcases List.mem_cons.mp hl with rfl | hl
      · exact Nat.lt_succ_self _
      · exact Nat.lt_succ_of_lt (h.below l hl)

/-- One lock changes with what one client has of it, who has to do with no other before and after.
-/
theorem change {change : Lock → Lock} (h : t.Counts grips) (hid : ∀ l, (change l).id = l.id)
    (hk : t.table.lookup key = some id)
    (hbefore : ∀ other m, (grips i).lock? = some (other, m) → other = key)
    (hafter : ∀ other m, g.lock? = some (other, m) → other = key ∧ m = id)
    (hlock : change (Grip.lockOf grips key id) =
      Grip.lockOf (Function.update grips i g) key id)
    (hfair : ∑ j, (Function.update grips i g j).writers key = 0 ∨
      ∑ j, (Function.update grips i g j).writers key = 1 ∧
        ∑ j, (Function.update grips i g j).readers key = 0) :
    (t.update id change).Counts (Function.update grips i g) := by
  have hsame : ∀ other, other ≠ key →
      ∑ j, (Function.update grips i g j).references other = ∑ j, (grips j).references other ∧
      ∑ j, (Function.update grips i g j).readers other = ∑ j, (grips j).readers other ∧
      ∑ j, (Function.update grips i g j).writers other = ∑ j, (grips j).writers other := by
    intro other hne
    have hold := Grip.at_away fun m hm => hne (hbefore other m hm)
    have hnew := Grip.at_away fun m hm => hne (hafter other m hm).1
    have hreferences := sum_update (Grip.references other) grips i g
    have hreaders := sum_update (Grip.readers other) grips i g
    have hwriters := sum_update (Grip.writers other) grips i g
    rw [hold.references, hnew.references] at hreferences
    rw [hold.readers, hnew.readers] at hreaders
    rw [hold.writers, hnew.writers] at hwriters
    exact ⟨hreferences, hreaders, hwriters⟩
  refine ⟨fun other m ho => ?_, fun j other m hj => ?_, h.apart, fun l hl => ?_, fun other => ?_⟩
  · have ho : t.table.lookup other = some m := ho
    rw [find?_update hid, h.lock other m ho]
    by_cases hne : other = key
    · subst hne
      cases hk.symm.trans ho
      rw [if_pos rfl, Option.map_some, hlock]
    · obtain ⟨hreferences, hreaders, hwriters⟩ := hsame other hne
      have hother : ¬ m = id := fun he => hne (h.apart other key id (he ▸ ho) hk)
      simp only [if_neg hother, Grip.lockOf, hreferences, hreaders, hwriters]
  · by_cases hji : j = i
    · subst hji
      rw [Function.update_self] at hj
      obtain ⟨rfl, rfl⟩ := hafter other m hj
      exact hk
    · rw [Function.update_of_ne hji] at hj
      exact h.used j other m hj
  · obtain ⟨l', hl', rfl⟩ := List.mem_map.mp hl
    have hbelow := h.below l' hl'
    split
    · rw [hid]
      exact hbelow
    · exact hbelow
  · by_cases hne : other = key
    · exact hne ▸ hfair
    · obtain ⟨_, hreaders, hwriters⟩ := hsame other hne
      rw [hreaders, hwriters]
      exact h.fair other

theorem refer (h : t.Counts grips) (hi : grips i = .free) (hr : t.refer key = (id, u)) :
    u.Counts (Function.update grips i (.asks key id)) := by
  have hfound : (t.opened key).table.lookup key = some id ∧
      u = (t.opened key).update id fun l => { l with references := l.references + 1 } := by
    unfold LockTable.refer at hr
    unfold LockTable.opened
    cases hk : t.table.lookup key with
    | some found =>
      simp only [hk] at hr
      cases hr
      exact ⟨hk, rfl⟩
    | none =>
      simp only [hk] at hr
      cases hr
      simp only [LockTable.update, List.map_cons, if_true, List.lookup_cons,
        beq_self_eq_true, true_and]
      congr 2
      exact (List.map_id _).symm.trans
        (List.map_congr_left fun l hl => (if_neg (h.below l hl).ne).symm)
  obtain ⟨hk, rfl⟩ := hfound
  have hfree : (grips i).At key 0 0 0 := hi ▸ Grip.at_free key
  obtain ⟨hreferences, hreaders, hwriters⟩ := hfree.moved (Grip.at_asks key id)
  refine (h.opened key).change (fun _ => rfl) hk (fun _ _ hlock => ?_) ?_ ?_ ?_
  · rw [hi] at hlock
    cases hlock
  · rintro other m ⟨⟩
    exact ⟨rfl, rfl⟩
  · simp only [Grip.lockOf, Lock.mk.injEq, decide_eq_decide, true_and]
    omega
  · have hfair := h.fair key
    omega

theorem enter (h : t.Counts grips) (hi : grips i = .asks key id)
    (he : t.enter? id access = some u) :
    u.Counts (Function.update grips i (.holds key id access)) := by
  have hk := h.used i key id (hi ▸ rfl)
  have hasks : (grips i).At key 1 0 0 := hi ▸ Grip.at_asks key id
  unfold LockTable.enter? at he
  rw [h.lock key id hk] at he
  dsimp only at he
  split at he
  · rename_i hfree
    cases he
    refine h.change (fun _ => by cases access <;> rfl) hk ?_ ?_ ?_ ?_
    · rw [hi]
      rintro other m ⟨⟩
      rfl
    · rintro other m ⟨⟩
      exact ⟨rfl, rfl⟩
    · cases access with
      | shared =>
        obtain ⟨hreferences, hreaders, hwriters⟩ := hasks.moved (Grip.at_shared key id)
        simp only [Grip.lockOf, Lock.enter, Lock.mk.injEq, decide_eq_decide, true_and]
        omega
      | exclusive =>
        obtain ⟨hreferences, hreaders, hwriters⟩ := hasks.moved (Grip.at_exclusive key id)
        simp only [Grip.lockOf, Lock.enter, Lock.mk.injEq, eq_comm (a := true), true_and,
          decide_eq_true_eq]
        omega
    · cases access with
      | shared =>
        obtain ⟨_, hreaders, hwriters⟩ := hasks.moved (Grip.at_shared key id)
        simp only [Lock.isFree, Grip.lockOf, Bool.not_eq_true', decide_eq_false_iff_not,
          not_not] at hfree
        omega
      | exclusive =>
        obtain ⟨_, hreaders, hwriters⟩ := hasks.moved (Grip.at_exclusive key id)
        simp only [Lock.isFree, Grip.lockOf, Bool.and_eq_true, Bool.not_eq_true',
          decide_eq_false_iff_not, not_not, beq_iff_eq] at hfree
        omega
  · cases he

/-- Who has a lock may have it as long as nobody has it in the way. -/
theorem enters (h : t.Counts grips) (hi : grips i = .asks key id)
    (hnone : ∀ j m a, grips j ≠ .holds key m a) (access : Access) :
    ∃ u, t.enter? id access = some u := by
  have hk := h.used i key id (hi ▸ rfl)
  have haway : ∀ j, (grips j).readers key = 0 ∧ (grips j).writers key = 0 := by
    intro j
    have hj := hnone j
    cases hgrip : grips j with
    | free | asks => exact ⟨rfl, rfl⟩
    | holds other m a =>
      have hne : other ≠ key := fun he => hj m a (he ▸ hgrip)
      cases a <;> simp [Grip.readers, Grip.writers, hne]
  have hreaders := Finset.sum_eq_zero (s := Finset.univ) fun j _ => (haway j).1
  have hwriters := Finset.sum_eq_zero (s := Finset.univ) fun j _ => (haway j).2
  unfold LockTable.enter?
  rw [h.lock key id hk]
  cases access <;> simp [Lock.isFree, Grip.lockOf, hreaders, hwriters]

theorem leave (h : t.Counts grips) (hi : grips i = .holds key id access) :
    (t.leave id access).Counts (Function.update grips i .free) := by
  have hk := h.used i key id (hi ▸ rfl)
  have hfair := h.fair key
  refine h.change (fun _ => by cases access <;> rfl) hk ?_ nofun ?_ ?_
  · rw [hi]
    rintro other m ⟨⟩
    rfl
  · cases access with
    | shared =>
      have hheld : (grips i).At key 1 1 0 := hi ▸ Grip.at_shared key id
      obtain ⟨hreferences, hreaders, hwriters⟩ := hheld.moved (Grip.at_free key)
      simp only [Grip.lockOf, Lock.leave, Lock.mk.injEq, decide_eq_decide, true_and]
      omega
    | exclusive =>
      have hheld : (grips i).At key 1 0 1 := hi ▸ Grip.at_exclusive key id
      obtain ⟨hreferences, hreaders, hwriters⟩ := hheld.moved (Grip.at_free key)
      simp only [Grip.lockOf, Lock.leave, Lock.mk.injEq, eq_comm (a := false), true_and,
        decide_eq_false_iff_not]
      omega
  · cases access with
    | shared =>
      have hheld : (grips i).At key 1 1 0 := hi ▸ Grip.at_shared key id
      obtain ⟨_, hreaders, hwriters⟩ := hheld.moved (Grip.at_free key)
      omega
    | exclusive =>
      have hheld : (grips i).At key 1 0 1 := hi ▸ Grip.at_exclusive key id
      obtain ⟨_, hreaders, hwriters⟩ := hheld.moved (Grip.at_free key)
      omega

/-- Only a lock that nobody has to do with is dropped. -/
theorem releaseIdle (h : t.Counts grips) (key : ContextKey) : (t.releaseIdle key).Counts grips := by
  unfold LockTable.releaseIdle
  split
  · exact h
  · rename_i id hk
    rw [h.lock key id hk]
    dsimp only
    split
    · rename_i hzero
      have hleft : ∀ other m, (t.table.filter (·.1 ≠ key)).lookup other = some m →
          t.table.lookup other = some m ∧ other ≠ key := by
        intro other m ho
        rw [lookup_filter_ne] at ho
        split at ho
        · cases ho
        · rename_i hne
          exact ⟨ho, hne⟩
      refine ⟨fun other m ho => ?_, fun j other m hj => ?_, fun a b m ha hb => ?_, fun l hl => ?_,
        h.fair⟩
      · obtain ⟨ho, hne⟩ := hleft other m ho
        have hother : m ≠ id := fun he => hne (h.apart other key id (he ▸ ho) hk)
        exact (find?_drop hother).trans (h.lock other m ho)
      · have hused := h.used j other m hj
        dsimp only
        rw [lookup_filter_ne, if_neg fun he => ?_]
        · exact hused
        · have hcounts := Finset.single_le_sum (f := fun i => (grips i).references key)
            (fun _ _ => Nat.zero_le _) (Finset.mem_univ j)
          have hone : (grips j).references key = 1 := by
            cases hgrip : grips j with
            | free =>
              rw [hgrip] at hj
              cases hj
            | asks | holds =>
              rw [hgrip] at hj
              cases hj
              exact if_pos he
          simp only [Grip.lockOf] at hzero
          omega
      · exact h.apart a b m (hleft a m ha).1 (hleft b m hb).1
      · exact h.below l (List.mem_filter.mp hl).1
    · exact h

end Counts

end LockTable

end Naming
