import Naming.Proofs.BindingSets
import Naming.Proofs.RecordBytes
import Naming.Proofs.Trees

namespace Naming.Disk

variable {d e : Disk} {key other : ContextKey} {bindings : BindingSet} {raw : Bytes}

theorem load_none_iff : d.load key = .ok none ↔ d.contexts.get? (place key) = none := by
  unfold load
  cases d.contexts.get? (place key) with
  | none => simp
  | some raw => cases h : readRecord key raw <;> simp [Except.map, h]

theorem load_some_iff : d.load key = .ok (some bindings) ↔
    ∃ raw, d.contexts.get? (place key) = some raw ∧ readRecord key raw = .ok bindings := by
  unfold load
  cases d.contexts.get? (place key) with
  | none => simp
  | some raw => cases h : readRecord key raw <;> simp [Except.map, h]

theorem load_congr (h : e.contexts.get? (place key) = d.contexts.get? (place key)) :
    e.load key = d.load key := by
  simp only [load, h]

theorem get?_save (h : d.save key bindings = .ok e) (other : Bytes) :
    e.contexts.get? other =
      if other = place key then some (Record.mk Record.currentVersion key bindings).encode
      else d.contexts.get? other := by
  simp only [save] at h
  split at h
  · cases h
    exact Tree.get?_insert _ _ _ _
  · cases h

theorem marks_save (h : d.save key bindings = .ok e) : e.marks = d.marks := by
  simp only [save] at h
  split at h <;> cases h
  rfl

theorem get?_remove (d : Disk) (key : ContextKey) (other : Bytes) :
    (d.remove key).contexts.get? other =
      if other = place key then none else d.contexts.get? other :=
  Tree.get?_erase _ _ _

theorem load_save (h : d.save key bindings = .ok e) :
    e.load key = .ok (some (.ofList bindings.entries)) := by
  have hfits : (Record.mk Record.currentVersion key bindings).fits = true := by
    simp only [save] at h
    split at h
    · assumption
    · cases h
  exact load_some_iff.mpr ⟨_, (get?_save h _).trans (if_pos rfl), read_record hfits⟩

theorem load_save_other (h : d.save key bindings = .ok e) (hne : other ≠ key) :
    e.load other = d.load other :=
  load_congr ((get?_save h _).trans (if_neg fun he => hne (place_injective he)))

theorem load_remove_other (hne : other ≠ key) : (d.remove key).load other = d.load other :=
  load_congr ((get?_remove d key _).trans (if_neg fun he => hne (place_injective he)))

/-- Records stand in the order of their places, each under its own key, and can be read. -/
structure Sound (d : Disk) : Prop where
  sorted : d.contexts.Sorted
  readable : ∀ entry ∈ d.contexts.entries, ∃ key bindings,
    entry.1 = place key ∧ readRecord key entry.2 = .ok bindings ∧ bindings.Regular

theorem sound_empty : Sound {} := ⟨List.Pairwise.nil, by simp⟩

theorem Sound.load (h : d.Sound) (hg : d.contexts.get? (place key) = some raw) :
    ∃ bindings, d.load key = .ok (some bindings) ∧ bindings.Regular := by
  obtain ⟨k, bindings, hp, hr, hb⟩ := h.readable _ (Tree.mem_of_get? hg)
  cases place_injective hp
  exact ⟨bindings, load_some_iff.mpr ⟨raw, hg, hr⟩, hb⟩

theorem Sound.regular (h : d.Sound) (hl : d.load key = .ok (some bindings)) :
    bindings.Regular := by
  obtain ⟨raw, hg, _⟩ := load_some_iff.mp hl
  obtain ⟨b, hb, hr⟩ := h.load hg
  rw [hl] at hb
  cases hb
  exact hr

/-- On a sound disk a load tells whether there is a record, and fails for no other reason. -/
theorem Sound.load_cases (h : d.Sound) (key : ContextKey) :
    d.load key = .ok none ∨ ∃ bindings, d.load key = .ok (some bindings) ∧ bindings.Regular := by
  cases hg : d.contexts.get? (place key) with
  | none => exact .inl (load_none_iff.mpr hg)
  | some raw => exact .inr (h.load hg)

theorem Sound.load_contained (h : d.Sound) (hc : d.contains key = true) :
    ∃ bindings, d.load key = .ok (some bindings) := by
  rcases h.load_cases key with hnone | ⟨bindings, hsome, _⟩
  · rw [contains, Tree.contains, load_none_iff.mp hnone] at hc
    cases hc
  · exact ⟨bindings, hsome⟩

theorem Sound.save (h : d.Sound) (hb : bindings.Regular) (hs : d.save key bindings = .ok e) :
    e.Sound := by
  simp only [Disk.save] at hs
  split at hs
  · rename_i hfits
    cases hs
    refine ⟨h.sorted.insert, ?_⟩
    intro entry hm
    rcases Tree.mem_insert hm with rfl | hm
    · exact ⟨key, _, rfl, read_record hfits, hb.eq_ofList.symm ▸ hb⟩
    · exact h.readable entry hm
  · cases hs

theorem Sound.remove (h : d.Sound) (key : ContextKey) : (d.remove key).Sound :=
  ⟨h.sorted.erase, fun entry hm => h.readable entry (Tree.mem_erase hm).1⟩

theorem Sound.congr (h : d.Sound) (he : e.contexts = d.contexts) : e.Sound :=
  ⟨he ▸ h.sorted, he ▸ h.readable⟩

theorem readKeys_places (keys : List ContextKey) : readKeys (keys.map place) = .ok keys := by
  induction keys with
  | nil => rfl
  | cons key keys ih =>
    simp only [List.map_cons, readKeys, place, Bytes.text_ofText] at ih ⊢
    rw [ih]
    rfl

/-- The keys of a sound disk can be read, and are those of its records in the order of places. -/
theorem Sound.keys (h : d.Sound) :
    ∃ keys, d.keys = .ok keys ∧ keys.map place = d.contexts.keys := by
  obtain ⟨keys, hk⟩ : ∃ keys : List ContextKey, keys.map place = d.contexts.keys := by
    have hr := h.readable
    unfold Tree.keys
    generalize d.contexts.entries = entries at hr ⊢
    induction entries with
    | nil => exact ⟨[], rfl⟩
    | cons entry rest ih =>
      obtain ⟨key, _, hp, _⟩ := hr entry List.mem_cons_self
      obtain ⟨keys, hk⟩ := ih fun e he => hr e (List.mem_cons_of_mem _ he)
      exact ⟨key :: keys, by simp [hk, hp]⟩
  exact ⟨keys, by rw [Disk.keys, ← hk, readKeys_places], hk⟩

theorem Sound.mem_keys (h : d.Sound) {keys : List ContextKey} (hk : d.keys = .ok keys) :
    key ∈ keys ↔ d.contains key = true := by
  obtain ⟨ks, hks, hp⟩ := h.keys
  rw [hk] at hks
  cases hks
  rw [contains, Tree.contains, Tree.get?_isSome_iff, ← hp, List.mem_map]
  constructor
  · intro hm
    exact ⟨key, hm, rfl⟩
  · rintro ⟨k, hm, he⟩
    exact place_injective he ▸ hm

theorem Sound.keys_nodup (h : d.Sound) {keys : List ContextKey} (hk : d.keys = .ok keys) :
    keys.Nodup := by
  obtain ⟨ks, hks, hp⟩ := h.keys
  rw [hk] at hks
  cases hks
  have hn := h.sorted.keys_nodup
  rw [← hp] at hn
  exact (List.pairwise_map.mp hn).imp fun hne he => hne (congrArg place he)

/-- The contexts that the record in these bytes leads to, if they hold a record. -/
def rawLinks (raw : Bytes) : List ContextKey :=
  match Record.decode raw with
  | .ok record => record.bindings.contexts
  | .error _ => []

/-- The contexts that the record stored under a key leads to. Whose record it is and of which
version does not matter. -/
def links (d : Disk) (key : ContextKey) : List ContextKey :=
  match d.contexts.get? (place key) with
  | none => []
  | some raw => rawLinks raw

/-- All contexts that some record leads to, as often as one does. -/
def allLinks (d : Disk) : List ContextKey := d.contexts.entries.flatMap fun e => rawLinks e.2

theorem length_allLinks (d : Disk) : d.allLinks.length = d.linkCount := by
  unfold allLinks linkCount
  induction d.contexts.entries with
  | nil => rfl
  | cons entry rest ih =>
    obtain ⟨_, raw⟩ := entry
    rw [List.flatMap_cons, List.length_append, ih, List.map_cons, List.foldr_cons, rawLinks]
    dsimp only
    cases Record.decode raw <;> rfl

theorem mem_allLinks (hm : other ∈ d.links key) : other ∈ d.allLinks := by
  unfold links at hm
  split at hm
  · simp at hm
  · rename_i raw hg
    exact List.mem_flatMap.mpr ⟨_, Tree.mem_of_get? hg, hm⟩

theorem links_congr (h : e.contexts.get? (place key) = d.contexts.get? (place key)) :
    e.links key = d.links key := by
  simp only [links, h]

theorem links_of_load (h : d.load key = .ok (some bindings)) : d.links key = bindings.contexts := by
  obtain ⟨raw, hg, hr⟩ := load_some_iff.mp h
  simp only [links, hg, rawLinks]
  unfold readRecord at hr
  cases hd : Record.decode raw with
  | error fault => simp [hd] at hr
  | ok record =>
    simp only [hd] at hr
    split at hr
    · cases hr
    · split at hr
      · cases hr
      · cases hr
        rfl

theorem links_of_missing (h : d.load key = .ok none) : d.links key = [] := by
  simp only [links, load_none_iff.mp h]

/-- The contexts that can be reached from a root by following bindings of stored records. -/
inductive Reaches (d : Disk) (root : ContextKey) : ContextKey → Prop where
  | root : Reaches d root root
  | step {key next : ContextKey} (before : Reaches d root key) (link : next ∈ d.links key) :
      Reaches d root next

/-- What is reached stays reached when the records on the way stay as they are. -/
theorem Reaches.transfer {root : ContextKey}
    (h : ∀ k, d.Reaches root k → e.contexts.get? (place k) = d.contexts.get? (place k))
    (hr : d.Reaches root key) : e.Reaches root key := by
  induction hr with
  | root => exact .root
  | step before link ih => exact .step ih (links_congr (h _ before) ▸ link)

/-- What is reached is the root or some record leads to it. -/
theorem Reaches.mem {root : ContextKey} (h : d.Reaches root key) : key ∈ root :: d.allLinks := by
  cases h with
  | root => exact List.mem_cons_self
  | step before link => exact List.mem_cons_of_mem _ (mem_allLinks link)

theorem allocate_ok (h : d.allocate = .ok (key, e)) :
    ∃ n, d.highWaterMark = .ok n ∧ key = .ofIndex n ∧ e.highWaterMark = .ok (n + 1) ∧
      e.contexts = d.contexts := by
  unfold allocate at h
  cases hv : Counter.value (d.marks.get? counterPlace) with
  | error failure => simp [Counter.advance, hv, bind, Except.bind] at h
  | ok n =>
    by_cases hn : n + 1 < Counter.limit
    · simp only [Counter.advance, hv, bind, Except.bind, hn, if_true, Counter.swap] at h
      cases h
      refine ⟨n, hv, rfl, ?_, rfl⟩
      simp only [highWaterMark, Tree.get?_insert, if_true, Counter.value, Bytes.length_bigEndian]
      rw [Bytes.ofBigEndian_bigEndian hn]
    · simp [Counter.advance, hv, bind, Except.bind, hn] at h

end Naming.Disk
