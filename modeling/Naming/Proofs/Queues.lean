import Naming.Proofs.ReachedAtRest
import Mathlib.Data.List.Induction

namespace Naming.Resident

/-- What is done to the contexts kept in memory at the end of a request. -/
inductive Step where
  | insert (key : ContextKey) (bindings : BindingSet)
  | remove (key : ContextKey)

def Step.key : Step → ContextKey
  | insert key _ | remove key => key

def step (capacity : Nat) (r : Resident) : Step → Resident
  | .insert key bindings => r.insert capacity key bindings
  | .remove key => r.remove key

/-- What is kept after a run that starts with nothing. -/
def run (capacity : Nat) (steps : List Step) : Resident := steps.foldl (step capacity) {}

/-- The queue holds each key that is kept once, and nothing else, and no key is kept twice. -/
structure Matched (r : Resident) : Prop where
  once : r.order.Nodup
  kept : ∀ key, key ∈ r.order ↔ (r.get? key).isSome
  distinct : (r.entries.map Prod.fst).Nodup

/-- A context together with those kept so far, before the oldest of them are let go of. -/
def put (r : Resident) (key : ContextKey) (bindings : BindingSet) : Resident :=
  ⟨(key, bindings) :: r.entries.filter (·.1 ≠ key),
    if (r.get? key).isSome then r.order else r.order ++ [key]⟩

/-- The oldest contexts are let go of one by one, for as long as there are too many and until
there are few enough. There is no case for a queue that runs out before that. -/
inductive Evicts (capacity : Nat) : Resident → Resident → Prop
  | enough {r : Resident} (few : r.size ≤ capacity) : Evicts capacity r r
  | oldest {entries : List (ContextKey × BindingSet)} {order : List ContextKey}
      {key : ContextKey} {r : Resident} (many : capacity < entries.length)
      (rest : Evicts capacity ⟨entries.filter (·.1 ≠ key), order⟩ r) :
      Evicts capacity ⟨entries, key :: order⟩ r

/-- A key came in with a step of the run, when it was not kept, and has been kept ever since. -/
structure Since (capacity : Nat) (steps : List Step) (key : ContextKey) (i : Nat) : Prop where
  insert : ∃ bindings, steps[i]? = some (.insert key bindings)
  absent : (run capacity (steps.take i)).get? key = none
  kept : ∀ j, i < j → j ≤ steps.length → ((run capacity (steps.take j)).get? key).isSome

/-- Of two keys that are kept, the one came in before the other. -/
def Older (capacity : Nat) (steps : List Step) (old new : ContextKey) : Prop :=
  ∀ i j, Since capacity steps old i → Since capacity steps new j → i < j

variable {capacity : Nat} {r s : Resident} {key other old new : ContextKey}
variable {bindings found : BindingSet} {steps : List Step} {last : Step} {i j : Nat}

theorem run_append (capacity : Nat) (steps : List Step) (last : Step) :
    run capacity (steps ++ [last]) = step capacity (run capacity steps) last := by
  simp only [run, List.foldl_append, List.foldl_cons, List.foldl_nil]

theorem get?_isSome_iff (r : Resident) (key : ContextKey) :
    (r.get? key).isSome ↔ key ∈ r.entries.map Prod.fst := by
  simp [get?, List.lookup_isSome_iff]

theorem get?_put (r : Resident) (key : ContextKey) (bindings : BindingSet) (other : ContextKey) :
    (r.put key bindings).get? other = if other = key then some bindings else r.get? other := by
  simp only [get?, put, lookup_cons_if, lookup_filter_ne]
  split <;> rfl

namespace Matched

theorem empty : Matched {} :=
  ⟨List.nodup_nil, fun _ => by simp [get?], List.nodup_nil⟩

theorem size_eq (h : r.Matched) : r.size = r.order.length := by
  have hkeys : (r.entries.map Prod.fst).Perm r.order := by
    apply (List.perm_ext_iff_of_nodup h.distinct h.once).mpr
    intro key
    rw [h.kept, get?_isSome_iff]
  have hlength := hkeys.length_eq
  rwa [List.length_map] at hlength

theorem put (h : r.Matched) (key : ContextKey) (bindings : BindingSet) :
    (r.put key bindings).Matched := by
  refine ⟨?_, ?_, ?_⟩
  · simp only [Resident.put]
    split
    · exact h.once
    · rename_i hnew
      have hout : key ∉ r.order := fun hin => hnew ((h.kept key).mp hin)
      apply List.nodup_append.mpr
      refine ⟨h.once, List.nodup_singleton key, ?_⟩
      intro a ha b hb heq
      rw [List.mem_singleton.mp hb] at heq
      exact hout (heq ▸ ha)
  · intro other
    rw [get?_put]
    simp only [Resident.put]
    by_cases hk : other = key
    · subst hk
      cases hold : (r.get? other).isSome with
      | true => simpa using (h.kept other).mpr hold
      | false => simp
    · rw [if_neg hk, ← h.kept other]
      split
      · exact Iff.rfl
      · simp [hk]
  · simp only [Resident.put, List.map_cons, List.nodup_cons]
    constructor
    · simp
    · exact h.distinct.sublist (List.filter_sublist.map Prod.fst)

theorem without (h : r.Matched) (key : ContextKey) :
    Matched ⟨r.entries.filter (·.1 ≠ key), r.order.filter (· ≠ key)⟩ := by
  refine ⟨h.once.sublist List.filter_sublist, ?_, ?_⟩
  · intro other
    have hk := h.kept other
    simp only [get?, lookup_filter_ne] at hk ⊢
    by_cases hne : other = key
    · simp [hne]
    · simp [hne, hk]
  · exact h.distinct.sublist (List.filter_sublist.map Prod.fst)

theorem tail {entries : List (ContextKey × BindingSet)} {order : List ContextKey}
    (h : Matched ⟨entries, key :: order⟩) : Matched ⟨entries.filter (·.1 ≠ key), order⟩ := by
  have hwithout := h.without key
  have hout : key ∉ order := (List.nodup_cons.mp h.once).1
  have horder : (key :: order).filter (· ≠ key) = order := by
    rw [List.filter_cons_of_neg (by simp)]
    apply List.filter_eq_self.mpr
    intro other hin
    have hne : other ≠ key := fun heq => hout (heq ▸ hin)
    simpa using hne
  rwa [horder] at hwithout

theorem remove (h : r.Matched) (key : ContextKey) : (r.remove key).Matched := by
  unfold Resident.remove
  split
  · exact h.without key
  · exact h

theorem order_remove (h : r.Matched) (key : ContextKey) :
    (r.remove key).order = r.order.filter (· ≠ key) := by
  unfold Resident.remove
  split
  · rfl
  · rename_i hnone
    symm
    apply List.filter_eq_self.mpr
    intro other hin
    have hne : other ≠ key := fun heq => hnone ((h.kept key).mp (heq ▸ hin))
    simpa using hne

/-- A queue that holds every key kept does not run out before enough of them are let go of. -/
theorem evicts {entries : List (ContextKey × BindingSet)} {order : List ContextKey}
    (h : Matched ⟨entries, order⟩) (capacity : Nat) :
    Evicts capacity ⟨entries, order⟩ (evict capacity entries order) := by
  induction order generalizing entries with
  | nil =>
    have hsize := h.size_eq
    apply Evicts.enough
    rw [hsize]
    exact Nat.zero_le capacity
  | cons oldest order ih =>
    unfold evict
    split
    · rename_i hmany
      exact .oldest hmany (ih h.tail)
    · rename_i hfew
      exact .enough (Nat.le_of_not_lt hfew)

end Matched

namespace Evicts

theorem few (h : Evicts capacity r s) : s.size ≤ capacity := by
  induction h with
  | enough few => exact few
  | oldest many rest ih => exact ih

theorem matched (h : Evicts capacity r s) (hr : r.Matched) : s.Matched := by
  induction h with
  | enough few => exact hr
  | oldest many rest ih => exact ih hr.tail

theorem suffix (h : Evicts capacity r s) : s.order <:+ r.order := by
  induction h with
  | enough few => exact List.suffix_rfl
  | oldest many rest ih => exact ih.trans (List.suffix_cons _ _)

theorem eq_of_few (h : Evicts capacity r s) (hr : r.size ≤ capacity) : s = r := by
  cases h with
  | enough few => rfl
  | oldest many rest => exact absurd hr (Nat.not_le_of_lt many)

end Evicts

theorem insert_evicts (h : r.Matched) (capacity : Nat) (key : ContextKey)
    (bindings : BindingSet) :
    Evicts capacity (r.put key bindings) (r.insert capacity key bindings) :=
  (h.put key bindings).evicts capacity

theorem size_remove_le (r : Resident) (key : ContextKey) : (r.remove key).size ≤ r.size := by
  unfold remove
  split
  · exact List.length_filter_le _ _
  · exact Nat.le_refl _

/-- One step keeps queue and contexts matched, and no more of them than there may be. -/
theorem step_matched (h : r.Matched) (hsize : r.size ≤ capacity) (last : Step) :
    (step capacity r last).Matched ∧ (step capacity r last).size ≤ capacity := by
  cases last with
  | insert key bindings =>
    have hevicts := insert_evicts h capacity key bindings
    exact ⟨hevicts.matched (h.put key bindings), hevicts.few⟩
  | remove key => exact ⟨h.remove key, Nat.le_trans (size_remove_le r key) hsize⟩

theorem run_matched (capacity : Nat) (steps : List Step) :
    (run capacity steps).Matched ∧ (run capacity steps).size ≤ capacity := by
  induction steps using List.reverseRecOn with
  | nil => exact ⟨.empty, Nat.zero_le capacity⟩
  | append_singleton steps last ih =>
    rw [run_append]
    exact step_matched ih.1 ih.2 last

/-- A context that is kept already is not one more, so nothing is let go of for it. -/
theorem insert_kept (h : r.Matched) (hsize : r.size ≤ capacity)
    (hkept : (r.get? key).isSome) (bindings : BindingSet) :
    r.insert capacity key bindings = r.put key bindings := by
  apply (insert_evicts h capacity key bindings).eq_of_few
  rw [(h.put key bindings).size_eq, put, if_pos hkept, ← h.size_eq]
  exact hsize

/-- What a step leaves in memory was there before, or came in with the step. -/
theorem get?_step (h : (step capacity r last).get? key = some found) :
    last = .insert key found ∨ last.key ≠ key ∧ r.get? key = some found := by
  cases last with
  | insert other bindings =>
    rcases get?_insert h with ⟨hkey, hfound⟩ | ⟨hne, hold⟩
    · exact .inl (by rw [hkey, hfound])
    · exact .inr ⟨Ne.symm hne, hold⟩
  | remove other =>
    simp only [step, get?_remove] at h
    split at h
    · cases h
    · rename_i hne
      exact .inr ⟨Ne.symm hne, h⟩

/-- The bindings kept are those of the last step that was taken with their key. -/
theorem get?_run (h : (run capacity steps).get? key = some found) :
    ∃ before after, steps = before ++ .insert key found :: after ∧
      ∀ step ∈ after, step.key ≠ key := by
  induction steps using List.reverseRecOn with
  | nil => cases h
  | append_singleton steps last ih =>
    rw [run_append] at h
    rcases get?_step h with hlast | ⟨hne, hold⟩
    · exact ⟨steps, [], by rw [hlast], by simp⟩
    · obtain ⟨before, after, hsteps, hafter⟩ := ih hold
      refine ⟨before, after ++ [last], by simp [hsteps], ?_⟩
      intro step hstep
      rcases List.mem_append.mp hstep with hin | hin
      · exact hafter step hin
      · rw [List.mem_singleton.mp hin]
        exact hne

namespace Since

theorem lt (h : Since capacity steps key i) : i < steps.length := by
  obtain ⟨bindings, hinsert⟩ := h.insert
  exact (List.getElem?_eq_some_iff.mp hinsert).1

theorem get? (h : Since capacity steps key i) : ((run capacity steps).get? key).isSome := by
  have hkept := h.kept steps.length h.lt (Nat.le_refl _)
  rwa [List.take_length] at hkept

theorem unique (h : Since capacity steps key i) (h' : Since capacity steps key j) : i = j := by
  -- the later of the two found the key kept, and an insert that counts does not
  rcases Nat.lt_trichotomy i j with hlt | heq | hlt
  · have hkept := h.kept j hlt (Nat.le_of_lt h'.lt)
    rw [h'.absent] at hkept
    cases hkept
  · exact heq
  · have hkept := h'.kept i hlt (Nat.le_of_lt h.lt)
    rw [h.absent] at hkept
    cases hkept

theorem append (h : Since capacity steps key i)
    (hstays : ((run capacity (steps ++ [last])).get? key).isSome) :
    Since capacity (steps ++ [last]) key i := by
  have hi := h.lt
  obtain ⟨bindings, hinsert⟩ := h.insert
  refine ⟨⟨bindings, ?_⟩, ?_, ?_⟩
  · rw [List.getElem?_append_left hi, hinsert]
  · rw [List.take_append_of_le_length (Nat.le_of_lt hi)]
    exact h.absent
  · intro j hj hlength
    by_cases hend : j ≤ steps.length
    · rw [List.take_append_of_le_length hend]
      exact h.kept j hj hend
    · rw [List.take_of_length_le (by simp; omega)]
      exact hstays

/-- A key that was kept before the last step came in before it. -/
theorem before (h : Since capacity (steps ++ [last]) key i)
    (hold : ((run capacity steps).get? key).isSome) : Since capacity steps key i := by
  have hle : i ≤ steps.length := by
    have hlt := h.lt
    simp only [List.length_append, List.length_singleton] at hlt
    omega
  have habsent := h.absent
  rw [List.take_append_of_le_length hle] at habsent
  have hi : i < steps.length := by
    apply Nat.lt_of_le_of_ne hle
    intro heq
    rw [heq, List.take_length] at habsent
    rw [habsent] at hold
    cases hold
  obtain ⟨bindings, hinsert⟩ := h.insert
  rw [List.getElem?_append_left hi] at hinsert
  refine ⟨⟨bindings, hinsert⟩, habsent, ?_⟩
  intro j hj hlength
  have hkept := h.kept j hj (by simp; omega)
  rwa [List.take_append_of_le_length hlength] at hkept

/-- A key that was not kept before the last step came in with it. -/
theorem eq_length (h : Since capacity (steps ++ [last]) key i)
    (hnew : ¬ ((run capacity steps).get? key).isSome) : i = steps.length := by
  have hlt := h.lt
  simp only [List.length_append, List.length_singleton] at hlt
  by_contra hne
  have hkept := h.kept steps.length (by omega) (by simp)
  rw [List.take_append_of_le_length (Nat.le_refl _), List.take_length] at hkept
  exact hnew hkept

end Since

/-- Every key that is kept came in with one step of the run. -/
theorem exists_since (h : ((run capacity steps).get? key).isSome) :
    ∃ i, Since capacity steps key i := by
  induction steps using List.reverseRecOn with
  | nil => cases h
  | append_singleton steps last ih =>
    by_cases hold : ((run capacity steps).get? key).isSome
    · obtain ⟨i, hsince⟩ := ih hold
      exact ⟨i, hsince.append h⟩
    · obtain ⟨found, hfound⟩ := Option.isSome_iff_exists.mp h
      rw [run_append] at hfound
      rcases get?_step hfound with hlast | ⟨-, hkept⟩
      · refine ⟨steps.length, ⟨found, by simp [hlast]⟩, ?_, ?_⟩
        · simpa using hold
        · intro j hj hlength
          rw [List.take_of_length_le (by simp; omega)]
          exact h
      · rw [hkept] at hold
        exact absurd rfl hold

/-- The last step does not change which of two keys came in first. -/
theorem Older.append (h : Older capacity steps old new)
    (hold : ((run capacity steps).get? old).isSome) :
    Older capacity (steps ++ [last]) old new := by
  intro i j hi hj
  have hbefore := hi.before hold
  by_cases hnew : ((run capacity steps).get? new).isSome
  · exact h i j hbefore (hj.before hnew)
  · rw [hj.eq_length hnew]
    exact hbefore.lt

/-- A queue in the order in which its keys came in is still one when a key is put into it. -/
theorem older_put (h : (run capacity steps).order.Pairwise (Older capacity steps))
    (key : ContextKey) (bindings : BindingSet) :
    ((run capacity steps).put key bindings).order.Pairwise fun old new =>
      ((run capacity steps).get? old).isSome ∧ Older capacity steps old new := by
  have hmatched := (run_matched capacity steps).1
  have hkept : (run capacity steps).order.Pairwise fun old new =>
      ((run capacity steps).get? old).isSome ∧ Older capacity steps old new := by
    apply h.imp_of_mem
    intro old new hold hnew holder
    exact ⟨(hmatched.kept old).mp hold, holder⟩
  simp only [put]
  split
  · exact hkept
  · rename_i hnew
    apply List.pairwise_append.mpr
    refine ⟨hkept, List.pairwise_singleton _ _, ?_⟩
    intro old hold new hlast
    rw [List.mem_singleton.mp hlast]
    exact ⟨(hmatched.kept old).mp hold, fun i j hi hj => absurd hj.get? hnew⟩

/-- The keys in the queue stand in the order in which they came in. -/
theorem run_older (capacity : Nat) (steps : List Step) :
    (run capacity steps).order.Pairwise (Older capacity steps) := by
  induction steps using List.reverseRecOn with
  | nil => exact List.Pairwise.nil
  | append_singleton steps last ih =>
    have hmatched := (run_matched capacity steps).1
    rw [run_append]
    cases last with
    | insert key bindings =>
      have hsuffix := (insert_evicts hmatched capacity key bindings).suffix
      -- what is let go of was at the front, so the rest of the queue keeps its order
      apply ((older_put ih key bindings).sublist hsuffix.sublist).imp
      rintro old new ⟨hold, holder⟩
      exact holder.append hold
    | remove key =>
      simp only [step, hmatched.order_remove]
      apply (ih.sublist List.filter_sublist).imp_of_mem
      intro old new hold hnew holder
      exact holder.append ((hmatched.kept old).mp (List.mem_of_mem_filter hold))

/-- A key that an insert lets go of came in before every key that stays. -/
theorem evicted_first (hold : Since capacity steps old i)
    (hgone : (run capacity (steps ++ [.insert key bindings])).get? old = none)
    (hnew : Since capacity (steps ++ [.insert key bindings]) new j) : i < j := by
  by_cases hkept : ((run capacity steps).get? new).isSome
  · have hmatched := (run_matched capacity steps).1
    have hnext := (run_matched capacity (steps ++ [.insert key bindings])).1
    have hevicts := insert_evicts hmatched capacity key bindings
    obtain ⟨gone, horder⟩ := hevicts.suffix
    have hpairs := older_put (run_older capacity steps) key bindings
    have hstays : new ∈ ((run capacity steps).insert capacity key bindings).order := by
      have hmem := (hnext.kept new).mpr hnew.get?
      rwa [run_append] at hmem
    have hleaves : old ∈ gone := by
      have hput : old ∈ ((run capacity steps).put key bindings).order := by
        simp only [put]
        split
        · exact (hmatched.kept old).mpr hold.get?
        · exact List.mem_append_left _ ((hmatched.kept old).mpr hold.get?)
      rw [← horder] at hput
      rcases List.mem_append.mp hput with hin | hin
      · exact hin
      · have hsome := (hnext.kept old).mp (by rwa [run_append])
        rw [hgone] at hsome
        cases hsome
    -- what was let go of stood before what stays, in a queue that is in order
    rw [← horder] at hpairs
    have hpair := (List.pairwise_append.mp hpairs).2.2 old hleaves new hstays
    exact hpair.2 i j hold (hnew.before hkept)
  · rw [hnew.eq_length hkept]
    exact hold.lt

/-- Contexts are let go of in the order in which they came in, for as long as there are too many;
to put one in again that is kept changes its bindings but not its place. -/
theorem run_queued (capacity : Nat) (steps : List Step) :
    (run capacity steps).Matched ∧ (run capacity steps).size ≤ capacity ∧
    (∀ key found, (run capacity steps).get? key = some found →
      ∃ before after, steps = before ++ .insert key found :: after ∧
        ∀ step ∈ after, step.key ≠ key) ∧
    (∀ key ∈ (run capacity steps).order, ∃! i, Since capacity steps key i) ∧
    (run capacity steps).order.Pairwise (Older capacity steps) ∧
    (∀ key bindings,
      Evicts capacity ((run capacity steps).put key bindings)
        (run capacity (steps ++ [.insert key bindings])) ∧
      (((run capacity steps).get? key).isSome →
        (run capacity (steps ++ [.insert key bindings])).order = (run capacity steps).order ∧
        ∀ other, (run capacity (steps ++ [.insert key bindings])).get? other =
          if other = key then some bindings else (run capacity steps).get? other) ∧
      ∀ old new i j, Since capacity steps old i →
        (run capacity (steps ++ [.insert key bindings])).get? old = none →
        Since capacity (steps ++ [.insert key bindings]) new j → i < j) ∧
    ∀ key, (run capacity (steps ++ [.remove key])).order =
        (run capacity steps).order.filter (· ≠ key) ∧
      ∀ other, (run capacity (steps ++ [.remove key])).get? other =
        if other = key then none else (run capacity steps).get? other := by
  obtain ⟨hmatched, hsize⟩ := run_matched capacity steps
  refine ⟨hmatched, hsize, fun key found => get?_run, ?_, run_older capacity steps, ?_, ?_⟩
  · intro key hin
    obtain ⟨i, hsince⟩ := exists_since ((hmatched.kept key).mp hin)
    exact ⟨i, hsince, fun j hj => hj.unique hsince⟩
  · intro key bindings
    refine ⟨?_, ?_, fun old new i j => evicted_first⟩
    · rw [run_append]
      exact insert_evicts hmatched capacity key bindings
    · intro hkept
      rw [run_append, step, insert_kept hmatched hsize hkept]
      exact ⟨if_pos hkept, get?_put _ key bindings⟩
  · intro key
    rw [run_append]
    exact ⟨hmatched.order_remove key, get?_remove _ key⟩

/-- A context that came in first, and that was put in again after the second one came. -/
def refreshed : List Step :=
  [.insert (.ofIndex 0) {}, .insert (.ofIndex 1) {}, .insert (.ofIndex 0) {}]

theorem run_queued_refreshed :
    Since 2 refreshed (.ofIndex 0) 0 ∧
      (run 2 (refreshed ++ [.insert (.ofIndex 2) {}])).get? (.ofIndex 0) = none ∧
      Since 2 (refreshed ++ [.insert (.ofIndex 2) {}]) (.ofIndex 1) 1 ∧ 0 < 1 := by
  have hold : Since 2 refreshed (.ofIndex 0) 0 := by
    have hkept : ∀ j < 4, 0 < j → ((run 2 (refreshed.take j)).get? (.ofIndex 0)).isSome := by
      decide
    exact ⟨⟨_, rfl⟩, rfl, fun j hj hlength => hkept j (Nat.lt_succ_of_le hlength) hj⟩
  have hnew : Since 2 (refreshed ++ [.insert (.ofIndex 2) {}]) (.ofIndex 1) 1 := by
    have hkept : ∀ j < 5, 1 < j →
        ((run 2 ((refreshed ++ [Step.insert (.ofIndex 2) {}]).take j)).get?
          (.ofIndex 1)).isSome := by
      decide
    exact ⟨⟨_, rfl⟩, rfl, fun j hj hlength => hkept j (Nat.lt_succ_of_le hlength) hj⟩
  obtain ⟨-, -, -, -, -, hinsert, -⟩ := run_queued 2 refreshed
  have hfirst := (hinsert (.ofIndex 2) {}).2.2 (.ofIndex 0) (.ofIndex 1) 0 1
  exact ⟨hold, rfl, hnew, hfirst hold rfl hnew⟩

end Naming.Resident

namespace Naming

variable {disk : Disk} {running : Option Service} {s t : Server}

/-- What a server keeps in memory is what a run leaves in which every insert had the capacity of
the server. Nothing is kept where nothing is to be. -/
def Server.Queues (s : Server) : Prop :=
  match s.memory.retention with
  | .none => s.memory.resident = {}
  | .cache capacity => ∃ steps, s.memory.resident = Resident.run capacity steps

theorem Server.queues_empty (h : s.memory.resident = {}) : s.Queues := by
  unfold Queues
  split
  · exact h
  · exact ⟨[], h⟩

theorem Action.performs_queues {a : Action} {r : a.Result} (h : s.Queues)
    (hp : a.perform? s = some (r, t)) : t.Queues := by
  cases a with
  | settle key kept =>
    cases hp
    simp only [Server.Queues] at h ⊢
    cases hretention : s.memory.retention with
    | none =>
      rw [hretention] at h
      simp only at h ⊢
      rw [h]
      rfl
    | cache capacity =>
      rw [hretention] at h
      obtain ⟨steps, hrun⟩ := h
      cases kept with
      | none =>
        refine ⟨steps ++ [.remove key], ?_⟩
        rw [Resident.run_append, hrun]
        rfl
      | some bindings =>
        refine ⟨steps ++ [.insert key bindings], ?_⟩
        rw [Resident.run_append, hrun]
        rfl
  | save key bindings =>
    obtain ⟨u, hu, _, hmemory⟩ := performs_save key bindings s
    cases hu.symm.trans hp
    unfold Server.Queues
    rw [hmemory]
    exact h
  | allocate =>
    simp only [perform?] at hp
    split at hp <;> cases hp <;> exact h
  | enterLock id access =>
    obtain ⟨locks, _, he⟩ := Option.map_eq_some_iff.mp hp
    cases he
    exact h
  | enterGate access =>
    obtain ⟨gate, _, he⟩ := Option.map_eq_some_iff.mp hp
    cases he
    exact h
  | _ =>
    cases hp
    exact h

theorem Job.run_queues {α : Type} {job : Job α} {a : α} (h : s.Queues)
    (hr : job.run s = some (a, t)) : t.Queues :=
  Job.All.keeps (I := fun s t => s.Queues → t.Queues) (fun _ => id)
    (fun _ _ _ hst htu => htu ∘ hst) (fun _ _ _ _ _ hp hs => Action.performs_queues hs hp)
    job.all_steps hr h

theorem Worked.queues [Drawing] (h : Worked disk running s) : s.Queues :=
  h.keeps (fun _ _ => Server.queues_empty rfl) (fun _ _ _ => Server.queues_empty rfl)
    Job.run_queues (fun _ _ => id)

/-- Whatever a service has done, its queue is that of the contexts it keeps, and there are no more
of them than its retention allows. -/
theorem Worked.resident_matched [Drawing] (h : Worked disk running s) :
    s.memory.resident.Matched ∧ match s.memory.retention with
      | .none => s.memory.resident.size = 0
      | .cache capacity => s.memory.resident.size ≤ capacity := by
  have hqueues := h.queues
  unfold Server.Queues at hqueues
  cases hretention : s.memory.retention with
  | none =>
    rw [hretention] at hqueues
    simp only at hqueues ⊢
    rw [hqueues]
    exact ⟨.empty, rfl⟩
  | cache capacity =>
    rw [hretention] at hqueues
    obtain ⟨steps, hrun⟩ := hqueues
    rw [hrun]
    exact Resident.run_matched capacity steps

end Naming
