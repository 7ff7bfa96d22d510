import Naming.Proofs.Operations
import Naming.Proofs.Steps

namespace Naming

variable {α β : Type}

theorem toDigits_injective {m n : Nat} (h : Nat.toDigits 10 m = Nat.toDigits 10 n) : m = n := by
  rw [← Nat.ofDigitChars_ten_toDigits (n := m), h, Nat.ofDigitChars_ten_toDigits]

theorem ContextKey.ofIndex_injective {m n : Nat} (h : ofIndex m = ofIndex n) : m = n := by
  have hrepr : "NC" ++ toString m = "NC" ++ toString n := congrArg ContextKey.text h
  have hdigits : Nat.toDigits 10 m = Nat.toDigits 10 n := by
    have hlist := congrArg String.toList hrepr
    rw [String.toList_append, String.toList_append] at hlist
    have htail := List.append_cancel_left hlist
    rwa [Nat.toString_eq_repr, Nat.toString_eq_repr, Nat.toList_repr, Nat.toList_repr] at htail
  exact toDigits_injective hdigits

namespace Disk

/-- The counter of the keys never goes back. -/
def Counts (d e : Disk) : Prop :=
  ∀ n, d.highWaterMark = .ok n → ∃ m, n ≤ m ∧ e.highWaterMark = .ok m

variable {d e : Disk}

theorem Counts.of_marks (h : e.marks = d.marks) : d.Counts e := by
  intro n hn
  refine ⟨n, Nat.le_refl n, ?_⟩
  unfold highWaterMark at hn ⊢
  rw [h, hn]

theorem Counts.trans {f : Disk} (h : d.Counts e) (h' : e.Counts f) : d.Counts f := by
  intro n hn
  obtain ⟨m, hle, hm⟩ := h n hn
  obtain ⟨k, hle', hk⟩ := h' m hm
  exact ⟨k, Nat.le_trans hle hle', hk⟩

theorem counts_setRoot (d : Disk) (key : ContextKey) : d.Counts (d.setRoot key) := by
  intro n hn
  refine ⟨n, Nat.le_refl n, ?_⟩
  have hne : counterPlace ≠ rootPlace := by decide
  unfold highWaterMark at hn ⊢
  rw [setRoot, Tree.get?_insert, if_neg hne, hn]

theorem counts_allocate {key : ContextKey} (h : d.allocate = .ok (key, e)) : d.Counts e := by
  obtain ⟨n, hn, _, hnext, _⟩ := allocate_ok h
  intro m hm
  rw [hn] at hm
  cases hm
  exact ⟨n + 1, Nat.le_succ n, hnext⟩

end Disk

theorem Action.performs_counts {a : Action} {s t : Server} {r : a.Result}
    (h : a.perform? s = some (r, t)) : s.store.disk.Counts t.store.disk := by
  cases performs_alters h with
  | nothing same => exact .of_marks (congrArg Disk.marks same)
  | saved saved => exact .of_marks (Disk.marks_save saved)
  | removed removed =>
    have hmarks := congrArg Disk.marks removed
    exact .of_marks hmarks
  | allocated allocated => exact Disk.counts_allocate allocated
  | rooted rooted => exact rooted ▸ Disk.counts_setRoot _ _

theorem Job.run_counts {t : Job α} {s s' : Server} {a : α} (h : t.run s = some (a, s')) :
    s.store.disk.Counts s'.store.disk :=
  t.all_steps.keeps (I := fun s s' => s.store.disk.Counts s'.store.disk)
    (fun _ => .of_marks rfl) (fun _ _ _ h h' => h.trans h')
    (fun _ _ _ _ _ hp => Action.performs_counts hp) h

theorem serve_allocate {s t : Server} {key : ContextKey}
    (h : (Request.ofStorage (Job.act .allocate)).serve s = some (.ok key, t)) :
    ∃ n, s.store.disk.highWaterMark = .ok n ∧ key = .ofIndex n ∧
      t.store.disk.highWaterMark = .ok (n + 1) := by
  rw [Request.serve_ofStorage, Job.run_act] at h
  simp only [Action.perform?] at h
  rcases s.store.allocate_cases with ⟨failure, store, hc, hd⟩ | ⟨key, store, hc, hd⟩
  · rw [hc] at h
    cases h
  · rw [hc] at h
    cases h
    obtain ⟨n, hn, hk, hnext, _⟩ := Disk.allocate_ok hd
    exact ⟨n, hn, hk, hnext⟩

/-- A context is made under a key with a number that was not reached before. -/
theorem createContext_fresh {s t : Server} {key : ContextKey}
    (hg : s.memory.gate.closed = false) (h : createContext.serve s = some (.ok key, t)) :
    ∃ n m, s.store.disk.highWaterMark = .ok n ∧ key = .ofIndex n ∧ n < m ∧
      t.store.disk.highWaterMark = .ok m := by
  obtain ⟨u, hu, rfl⟩ := Request.serve_gated_cases hg h
  rcases Request.serve_bind_cases hu with ⟨_, _, he⟩ | ⟨k, v, hallocate, hrest⟩
  · cases he
  · obtain ⟨n, hn, hk, hnext⟩ := serve_allocate hallocate
    obtain ⟨m, hle, hm⟩ := Job.run_counts hrest (n + 1) hnext
    have hkey : key = k := by
      rcases Request.serve_bind_cases hrest with ⟨_, _, he⟩ | ⟨_, w, _, hnote⟩
      · cases he
      · rcases Request.serve_bind_cases hnote with ⟨_, _, he⟩ | ⟨_, x, _, hpure⟩
        · cases he
        · cases hpure
          rfl
    exact ⟨n, m, hn, hkey.trans hk, hle, hm⟩

/-- The keys that count as unbound have numbers below the counter. -/
def Server.Numbered (s : Server) : Prop :=
  ∃ n, s.store.disk.highWaterMark = .ok n ∧
    ∀ key ∈ s.memory.unbound, ∃ j, j < n ∧ key = .ofIndex j

end Naming
