import Naming.Disk.Tree

namespace Naming

namespace Bytes

theorem le_total (a b : Bytes) : le a b = true ∨ le b a = true := by
  induction a generalizing b with
  | nil => exact .inl (by cases b <;> rfl)
  | cons x xs ih =>
    cases b with
    | nil => exact .inr rfl
    | cons y ys =>
      by_cases h : x = y
      · subst h
        simpa [le] using ih ys
      · simp only [le, h, Ne.symm h, if_false, decide_eq_true_eq]
        exact UInt8.lt_or_lt_of_ne h

theorem le_trans {a b c : Bytes} (hab : le a b = true) (hbc : le b c = true) : le a c = true := by
  induction a generalizing b c with
  | nil => cases c <;> rfl
  | cons x xs ih =>
    cases b with
    | nil => cases hab
    | cons y ys =>
      cases c with
      | nil => cases hbc
      | cons z zs =>
        simp only [le] at hab hbc ⊢
        by_cases hxy : x = y
        · subst hxy
          by_cases hxz : x = z
          · simp only [hxz, if_true] at hab hbc ⊢
            exact ih hab hbc
          · simpa [hxz] using hbc
        · simp only [hxy, if_false, decide_eq_true_eq] at hab
          by_cases hyz : y = z
          · subst hyz
            simpa [hxy] using hab
          · simp only [hyz, if_false, decide_eq_true_eq] at hbc
            have hxz : x < z := UInt8.lt_trans hab hbc
            simpa [UInt8.ne_of_lt hxz] using hxz

theorem le_antisymm {a b : Bytes} (hab : le a b = true) (hba : le b a = true) : a = b := by
  induction a generalizing b with
  | nil =>
    cases b with
    | nil => rfl
    | cons y ys => cases hba
  | cons x xs ih =>
    cases b with
    | nil => cases hab
    | cons y ys =>
      simp only [le] at hab hba
      by_cases hxy : x = y
      · subst hxy
        simp only [if_true] at hab hba
        rw [ih hab hba]
      · simp only [hxy, Ne.symm hxy, if_false, decide_eq_true_eq] at hab hba
        exact absurd hba (UInt8.lt_asymm hab)

end Bytes

theorem lookup_cons_if {α β : Type} [BEq α] [LawfulBEq α] [DecidableEq α] (a k : α) (v : β)
    (rest : List (α × β)) :
    ((k, v) :: rest).lookup a = if a = k then some v else rest.lookup a := by
  by_cases h : a = k
  · simp [h]
  · simp [List.lookup_cons, beq_eq_false_iff_ne.mpr h, h]

theorem lookup_filter_ne {α β : Type} [BEq α] [LawfulBEq α] [DecidableEq α] (a k : α)
    (entries : List (α × β)) :
    (entries.filter (·.1 ≠ k)).lookup a = if a = k then none else entries.lookup a := by
  induction entries with
  | nil => simp
  | cons e rest ih =>
    obtain ⟨j, v⟩ := e
    by_cases hj : j = k
    · subst hj
      rw [List.filter_cons_of_neg (by simp), ih]
      by_cases h : a = j <;> simp [lookup_cons_if, h]
    · rw [List.filter_cons_of_pos (by simpa using hj), lookup_cons_if, lookup_cons_if, ih]
      by_cases h : a = j
      · subst h
        simp [hj]
      · simp [h]

namespace Tree

variable {t : Tree} {key other value : Bytes}

/-- No two entries share a key, and they stand in the order of their keys. -/
def Sorted (t : Tree) : Prop :=
  t.entries.Pairwise fun a b => Bytes.le a.1 b.1 = true ∧ a.1 ≠ b.1

theorem mem_of_get? (h : t.get? key = some value) : (key, value) ∈ t.entries := by
  obtain ⟨entries⟩ := t
  simp only [get?] at h
  induction entries with
  | nil => simp at h
  | cons e rest ih =>
    obtain ⟨k, v⟩ := e
    rw [lookup_cons_if] at h
    split at h
    · rename_i hk
      simp [hk, Option.some.inj h]
    · exact List.mem_cons_of_mem _ (ih h)

theorem get?_isSome_iff : (t.get? key).isSome = true ↔ key ∈ t.keys := by
  simp [get?, keys]

theorem get?_insert (t : Tree) (key value other : Bytes) :
    (t.insert key value).get? other = if other = key then some value else t.get? other := by
  obtain ⟨entries⟩ := t
  simp only [get?, insert]
  induction entries with
  | nil => simp [insertInto, lookup_cons_if]
  | cons e rest ih =>
    obtain ⟨k, v⟩ := e
    simp only [insertInto]
    split
    · rename_i hk
      subst hk
      by_cases h : other = k <;> simp [lookup_cons_if, h]
    · rename_i hk
      split
      · simp [lookup_cons_if]
      · by_cases h : other = k
        · subst h
          simp [hk]
        · simp [lookup_cons_if, h, ih]

theorem get?_erase (t : Tree) (key other : Bytes) :
    (t.erase key).get? other = if other = key then none else t.get? other :=
  lookup_filter_ne _ _ _

/-- An entry that is put in and taken out again leaves nothing behind. -/
theorem erase_insert (value : Bytes) (h : t.get? key = none) :
    (t.insert key value).erase key = t := by
  obtain ⟨entries⟩ := t
  simp only [get?] at h
  simp only [insert, erase, mk.injEq]
  induction entries with
  | nil => simp [insertInto]
  | cons e rest ih =>
    obtain ⟨k, v⟩ := e
    rw [lookup_cons_if] at h
    split at h
    · cases h
    · rename_i hk
      have hne : k ≠ key := Ne.symm hk
      have hrest : rest.filter (·.1 ≠ key) = rest := by
        refine List.filter_eq_self.mpr fun d hd => ?_
        have hd := List.lookup_eq_none_iff.mp h d hd
        rw [bne_iff_ne] at hd
        exact decide_eq_true (Ne.symm hd)
      simp only [insertInto, if_neg hne]
      split
      · rw [List.filter_cons_of_neg (by simp), List.filter_cons_of_pos (by simpa using hne), hrest]
      · rw [List.filter_cons_of_pos (by simpa using hne), ih h]

theorem mem_insertInto {e : Bytes × Bytes} {entries : List (Bytes × Bytes)}
    (h : e ∈ insertInto key value entries) : e = (key, value) ∨ e ∈ entries := by
  induction entries with
  | nil => simpa [insertInto] using h
  | cons d rest ih =>
    obtain ⟨k, v⟩ := d
    simp only [insertInto] at h
    split at h
    · rcases List.mem_cons.mp h with he | hm
      · exact .inl he
      · exact .inr (List.mem_cons_of_mem _ hm)
    · split at h
      · rcases List.mem_cons.mp h with he | hm
        · exact .inl he
        · exact .inr hm
      · rcases List.mem_cons.mp h with he | hm
        · exact .inr (he ▸ List.mem_cons_self)
        · exact (ih hm).imp_right (List.mem_cons_of_mem _)

theorem mem_insert {e : Bytes × Bytes} (h : e ∈ (t.insert key value).entries) :
    e = (key, value) ∨ e ∈ t.entries :=
  mem_insertInto h

theorem mem_erase {e : Bytes × Bytes} (h : e ∈ (t.erase key).entries) :
    e ∈ t.entries ∧ e.1 ≠ key := by
  obtain ⟨hm, hk⟩ := List.mem_filter.mp h
  exact ⟨hm, by simpa using hk⟩

theorem sorted_insertInto {entries : List (Bytes × Bytes)}
    (h : entries.Pairwise fun a b => Bytes.le a.1 b.1 = true ∧ a.1 ≠ b.1) :
    (insertInto key value entries).Pairwise fun a b => Bytes.le a.1 b.1 = true ∧ a.1 ≠ b.1 := by
  induction entries with
  | nil => simp [insertInto]
  | cons e rest ih =>
    obtain ⟨k, v⟩ := e
    obtain ⟨hhead, htail⟩ := List.pairwise_cons.mp h
    simp only [insertInto]
    split
    · rename_i hk
      subst hk
      exact List.pairwise_cons.mpr ⟨hhead, htail⟩
    · rename_i hk
      split
      · rename_i hle
        refine List.pairwise_cons.mpr ⟨?_, h⟩
        intro d hd
        rcases List.mem_cons.mp hd with rfl | hm
        · exact ⟨hle, Ne.symm hk⟩
        · obtain ⟨hkd, hne⟩ := hhead d hm
          refine ⟨Bytes.le_trans hle hkd, ?_⟩
          -- `key` lies before `k`, so `d` could be `key` only if `k` were
          intro he
          exact hne (Bytes.le_antisymm hkd (he ▸ hle))
      · rename_i hle
        have hkey : Bytes.le k key = true := (Bytes.le_total k key).resolve_right hle
        refine List.pairwise_cons.mpr ⟨?_, ih htail⟩
        intro d hd
        rcases mem_insertInto hd with rfl | hm
        · exact ⟨hkey, hk⟩
        · exact hhead d hm

theorem Sorted.insert (h : t.Sorted) : (t.insert key value).Sorted := sorted_insertInto h

theorem Sorted.erase (h : t.Sorted) : (t.erase key).Sorted := List.Pairwise.filter _ h

theorem Sorted.keys_nodup (h : t.Sorted) : t.keys.Nodup :=
  List.pairwise_map.mpr (List.Pairwise.imp (fun h => h.2) h)

end Tree

end Naming
