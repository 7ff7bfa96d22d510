import Naming.Proofs.Edits
import Naming.Proofs.Numbering

namespace Naming

theorem utf8ByteSize_ofList_le (chars : List Char) :
    (String.ofList chars).utf8ByteSize ≤ 4 * chars.length := by
  induction chars with
  | nil => simp
  | cons c rest ih =>
    have hc := c.utf8Size_le_four
    simp only [String.ofList_cons, String.utf8ByteSize_append, String.utf8ByteSize_singleton,
      List.length_cons]
    omega

namespace ContextKey

/-- The key has a number below this one. -/
def Below (n : Nat) (key : ContextKey) : Prop := ∃ i, i < n ∧ key = ofIndex i

variable {m n : Nat} {key : ContextKey}

theorem Below.mono (h : key.Below m) (hle : m ≤ n) : key.Below n := by
  obtain ⟨i, hi, hkey⟩ := h
  exact ⟨i, Nat.lt_of_lt_of_le hi hle, hkey⟩

theorem below_succ (n : Nat) : (ofIndex n).Below (n + 1) := ⟨n, Nat.lt_succ_self n, rfl⟩

theorem not_below (h : m ≤ n) : ¬ (ofIndex n).Below m := by
  rintro ⟨i, hi, hkey⟩
  have hni := ofIndex_injective hkey
  omega

theorem fitsText_ofIndex (h : n < Counter.limit) : Record.fitsText (ofIndex n).text = true := by
  have hdigits : (toString n).utf8ByteSize ≤ 4 * (Nat.toDigits 10 n).length := by
    have hle := utf8ByteSize_ofList_le (toString n).toList
    rwa [String.ofList_toList, Nat.toString_eq_repr, Nat.toList_repr] at hle
  have hlength : (Nat.toDigits 10 n).length ≤ 20 :=
    (Nat.length_toDigits_le_iff (by decide) (by decide)).mpr (Nat.lt_trans h (by decide))
  have hsize : (Bytes.ofText (ofIndex n).text).length = 2 + (toString n).utf8ByteSize := by
    change ("NC" ++ toString n).toByteArray.size = _
    exact String.utf8ByteSize_append
  have hlimit : 82 < Record.limit := by decide
  unfold Record.fitsText
  rw [decide_eq_true_eq, hsize]
  omega

end ContextKey

namespace Disk

variable {d e : Disk} {n : Nat} {key : ContextKey} {bindings : BindingSet}

theorem highWaterMark_lt (h : d.highWaterMark = .ok n) : n < Counter.limit := by
  unfold highWaterMark Counter.value at h
  split at h
  · cases h
    decide
  · rename_i raw _
    split at h
    · rename_i hlength
      cases h
      have hlt := Bytes.ofBigEndian_lt raw
      rwa [hlength] at hlt
    · cases h

theorem allocate_eq (h : d.highWaterMark = .ok n) : d.allocate =
    if n + 1 < Counter.limit then
      .ok (.ofIndex n, { d with
        marks := d.marks.insert counterPlace (Bytes.bigEndian 8 (n + 1)) })
    else .error .exhausted := by
  have hvalue : Counter.value (d.marks.get? counterPlace) = .ok n := h
  unfold allocate
  simp only [Counter.advance, hvalue, Bind.bind, Except.bind]
  by_cases hlimit : n + 1 < Counter.limit
  · simp only [hlimit, if_true, Counter.swap]
    rfl
  · simp only [hlimit, if_false]
    rfl

theorem allocate_root (h : d.allocate = .ok (key, e)) : e.root? = d.root? := by
  obtain ⟨n, hn, _⟩ := allocate_ok h
  rw [allocate_eq hn] at h
  split at h
  · cases h
    have hne : rootPlace ≠ counterPlace := by decide
    simp only [root?, Tree.get?_insert, if_neg hne]
  · cases h

theorem highWaterMark_setRoot (d : Disk) (key : ContextKey) :
    (d.setRoot key).highWaterMark = d.highWaterMark := by
  have hne : counterPlace ≠ rootPlace := by decide
  unfold highWaterMark
  rw [setRoot, Tree.get?_insert, if_neg hne]

theorem root_setRoot (d : Disk) (key : ContextKey) : (d.setRoot key).root? = .ok (some key) := by
  simp only [root?, setRoot, Tree.get?_insert, if_true, place, Bytes.text_ofText]

theorem create_eq (d : Disk) : d.create = (d.allocate.mapError .ofStorage).bind fun p =>
    (p.2.put p.1 .empty).map (p.1, ·) := by
  unfold create
  cases d.allocate with
  | error failure => rfl
  | ok p =>
    simp only [Bind.bind, Except.bind, Except.mapError]
    cases p.2.put p.1 .empty <;> rfl

theorem create_ok (h : d.create = .ok (key, e)) : ∃ f,
    d.allocate = .ok (key, f) ∧ f.put key .empty = .ok e := by
  obtain ⟨⟨k, f⟩, hallocate, hput⟩ := bind_ok h
  obtain ⟨saved, hsaved, he⟩ := bind_ok hput
  cases he
  exact ⟨f, mapError_ok hallocate, hsaved⟩

/-- An empty record under a key that can be handed out is not too long to be written. -/
theorem put_ofIndex (d : Disk) (h : n < Counter.limit) :
    ∃ e, d.put (.ofIndex n) .empty = .ok e := by
  have hfits : (Record.mk Record.currentVersion (.ofIndex n) .empty).fits = true := by
    have hkey := ContextKey.fitsText_ofIndex h
    simp only [Record.fits, hkey]
    rfl
  have hput : d.put (.ofIndex n) .empty = .ok { d with
      contexts := d.contexts.insert (place (.ofIndex n))
        (Record.mk Record.currentVersion (.ofIndex n) .empty).encode } := by
    simp only [put, save, hfits, if_true]
    rfl
  exact ⟨_, hput⟩

/-- Every key on the disk has a number below the counter: that of a record, that of the root and
those that records lead to. -/
structure Keyed (d : Disk) (n : Nat) : Prop where
  counter : d.highWaterMark = .ok n
  records : ∀ key, d.contains key = true → key.Below n
  links : ∀ key, ∀ other ∈ d.links key, other.Below n
  root : ∃ root, d.root? = .ok root ∧ ∀ key, root = some key → key.Below n

theorem keyed_empty : Keyed {} 0 := ⟨rfl, nofun, nofun, none, rfl, nofun⟩

namespace Keyed

theorem put (h : d.Keyed n) (hkey : key.Below n)
    (hlinks : ∀ other ∈ bindings.contexts, other.Below n) (hput : d.put key bindings = .ok e) :
    e.Keyed n := by
  have hmarks := marks_save (put_ok hput)
  refine ⟨(highWaterMark_congr hmarks).trans h.counter, fun other hc => ?_,
    fun k other hl => ?_, ?_⟩
  · rw [contains_put hput] at hc
    by_cases hk : other = key
    · exact hk ▸ hkey
    · simp only [hk, decide_false, Bool.false_or] at hc
      exact h.records other hc
  · rw [links_put hput] at hl
    split at hl
    · exact hlinks other hl
    · exact h.links k other hl
  · rw [root?_congr hmarks]
    exact h.root

theorem pruned (h : d.Keyed n) (hmarks : e.marks = d.marks)
    (hrecords : ∀ place, e.contexts.get? place = d.contexts.get? place ∨
      e.contexts.get? place = none) : e.Keyed n := by
  refine ⟨(highWaterMark_congr hmarks).trans h.counter, fun key hc => ?_,
    fun key other hl => ?_, ?_⟩
  · apply h.records
    rw [contains_eq] at hc ⊢
    rcases hrecords (place key) with hsame | hgone
    · rw [← hsame, hc]
    · rw [hgone] at hc
      cases hc
  · rcases hrecords (place key) with hsame | hgone
    · rw [links_congr hsame] at hl
      exact h.links key other hl
    · rw [links_of_not_contains (by rw [contains_eq, hgone]; rfl)] at hl
      cases hl
  · rw [root?_congr hmarks]
    exact h.root

theorem setRoot (h : d.Keyed n) (hkey : key.Below n) : (d.setRoot key).Keyed n := by
  refine ⟨(d.highWaterMark_setRoot key).trans h.counter, h.records, h.links, some key,
    d.root_setRoot key, fun other he => ?_⟩
  cases he
  exact hkey

/-- The key that is handed out has the number that the counter has then. -/
theorem allocated (h : d.Keyed n) (ha : d.allocate = .ok (key, e)) :
    key = .ofIndex n ∧ e.contexts = d.contexts ∧ e.Keyed (n + 1) := by
  obtain ⟨m, hm, hkey, hnext, hcontexts⟩ := allocate_ok ha
  have hmn : m = n := Except.ok.inj (hm.symm.trans h.counter)
  subst hmn
  refine ⟨hkey, hcontexts, hnext, fun other hc => ?_, fun k other hl => ?_, ?_⟩
  · rw [contains_eq, hcontexts] at hc
    exact (h.records other hc).mono (Nat.le_succ m)
  · have hlinks : e.links k = d.links k := links_congr (by rw [hcontexts])
    exact (h.links k other (hlinks ▸ hl)).mono (Nat.le_succ m)
  · obtain ⟨root, hroot, hbelow⟩ := h.root
    exact ⟨root, (allocate_root ha).trans hroot,
      fun k hk => (hbelow k hk).mono (Nat.le_succ m)⟩

/-- A key that is still to be handed out has no record, and no record leads to it. -/
theorem unused {m : Nat} (h : d.Keyed n) (hle : n ≤ m) :
    d.contains (.ofIndex m) = false ∧ ∀ key, .ofIndex m ∉ d.links key := by
  refine ⟨?_, fun key hl => ContextKey.not_below hle (h.links key _ hl)⟩
  cases hc : d.contains (.ofIndex m) with
  | false => rfl
  | true => exact absurd (h.records _ hc) (ContextKey.not_below hle)

theorem not_contains (h : d.Keyed n) : d.contains (.ofIndex n) = false :=
  (h.unused (Nat.le_refl n)).1

/-- A context is made under a key that no record has and that no record leads to. -/
theorem created (h : d.Keyed n) (hc : d.create = .ok (key, e)) :
    key = .ofIndex n ∧ e.Keyed (n + 1) := by
  obtain ⟨f, hallocate, hput⟩ := create_ok hc
  obtain ⟨hkey, _, hnext⟩ := h.allocated hallocate
  refine ⟨hkey, hnext.put (hkey ▸ ContextKey.below_succ n) (fun other ho => ?_) hput⟩
  rw [BindingSet.contexts_empty] at ho
  cases ho

/-- A record may be written again that leads nowhere new, except to what has a record. -/
theorem rewritten (h : d.Keyed n) (hkey : d.contains key = true)
    (hlinks : ∀ other ∈ bindings.contexts, other ∈ d.links key ∨ d.contains other = true)
    (hput : d.put key bindings = .ok e) : e.Keyed n := by
  refine h.put (h.records key hkey) (fun other ho => ?_) hput
  rcases hlinks other ho with hold | hstored
  · exact h.links key other hold
  · exact h.records other hstored

end Keyed

end Disk

end Naming
