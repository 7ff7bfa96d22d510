import Mathlib.Data.List.Nodup
import Naming.Binding.Set
import Naming.Proofs.Trees

namespace Naming.BindingSet

variable {s t : BindingSet} {b old : Binding} {name : Component} {position : Nat}

/-- The set with one more binding at its end. -/
def append (s : BindingSet) (b : Binding) : BindingSet :=
  ⟨s.entries ++ [b], (b.name, s.entries.length) :: s.index⟩

/-- The set with another binding at a position. -/
def place (s : BindingSet) (position : Nat) (b : Binding) : BindingSet :=
  { s with entries := s.entries.set position b }

/-- The set without the binding at a position, which has this name. -/
def drop (s : BindingSet) (position : Nat) (name : Component) : BindingSet :=
  ⟨s.entries.eraseIdx position, shift position (s.index.filter (·.1 ≠ name))⟩

/-- Why a binding may not take the place of one of the other type. What is no label cannot be
carried as the rest of a name. -/
def mismatch (b : Binding) : Failure :=
  match b.type with
  | .object => .notAnObject b.name
  | .context =>
    match Label.ofComponent? b.name with
    | some label => .notAContext (.single label)
    | none => .ofFault (.unnamed 0)

theorem get?_free (hp : s.position? name = none) : s.get? name = none := by
  simp [get?, hp]

theorem get?_entry (hp : s.position? name = some position)
    (hold : s.entries[position]? = some old) : s.get? name = some old := by
  simp [get?, hp, hold]

theorem get?_eq (s : BindingSet) (name : Component) :
    s.get? name = (s.position? name).bind (s.entries[·]?) := by
  unfold get?
  cases s.position? name <;> rfl

theorem mem_of_get? (h : s.get? name = some b) : b ∈ s.entries := by
  unfold get? at h
  split at h
  · cases h
  · exact List.mem_of_getElem? h

theorem get?_of_isEmpty (h : s.isEmpty = true) (name : Component) : s.get? name = none := by
  cases hb : s.get? name with
  | none => rfl
  | some b =>
    have hm := mem_of_get? hb
    rw [List.isEmpty_iff.mp h] at hm
    cases hm

theorem insert_new (hp : s.position? b.name = none) : s.insert b = .ok (s.append b) := by
  simp [insert, hp, append]

theorem insert_taken (hp : s.position? b.name = some position) :
    s.insert b = .error (.alreadyBound b.name) := by
  simp [insert, hp]

theorem insert_ok (h : s.insert b = .ok t) : s.position? b.name = none ∧ t = s.append b := by
  cases hp : s.position? b.name with
  | none =>
    rw [insert_new hp] at h
    cases h
    exact ⟨rfl, rfl⟩
  | some position =>
    rw [insert_taken hp] at h
    cases h

theorem ofComponents_single (c : Component) :
    Name.ofComponents [c] =
      match Label.ofComponent? c with
      | some label => .ok (.single label)
      | none => .error (.unnamed 0) := by
  by_cases h : c.isNamed = true
  · simp [Name.ofComponents, Name.labelsFrom, Label.ofComponent?, Except.map, Name.single, h]
  · simp [Name.ofComponents, Name.labelsFrom, Label.ofComponent?, h]

theorem replace_new (hp : s.position? b.name = none) :
    s.replace b = .ok (none, s.append b) := by
  simp [replace, hp, insert_new hp, Except.map]

theorem replace_found (hp : s.position? b.name = some position)
    (hold : s.entries[position]? = some old) :
    s.replace b =
      if old.type = b.type then .ok (some old, s.place position b) else .error (mismatch b) := by
  unfold replace mismatch
  simp only [hp, hold, ofComponents_single]
  cases old.type <;> cases b.type <;> cases Label.ofComponent? b.name <;> rfl

theorem replace_lost (hp : s.position? b.name = some position)
    (hold : s.entries[position]? = none) : s.replace b = .ok (none, s) := by
  simp [replace, hp, hold]

/-- A binding goes last or takes the place of one of its type, unless the index is wrong. -/
theorem replace_ok {o : Option Binding} (h : s.replace b = .ok (o, t)) :
    (s.position? b.name = none ∧ t = s.append b) ∨
      ∃ position, s.position? b.name = some position ∧
        ((s.entries[position]? = none ∧ t = s) ∨
          ∃ old, s.entries[position]? = some old ∧ old.type = b.type ∧
            t = s.place position b) := by
  cases hp : s.position? b.name with
  | none =>
    rw [replace_new hp] at h
    cases h
    exact .inl ⟨rfl, rfl⟩
  | some position =>
    refine .inr ⟨position, rfl, ?_⟩
    cases hold : s.entries[position]? with
    | none =>
      rw [replace_lost hp hold] at h
      cases h
      exact .inl ⟨rfl, rfl⟩
    | some old =>
      rw [replace_found hp hold] at h
      split at h
      · rename_i htype
        cases h
        exact .inr ⟨old, rfl, htype, rfl⟩
      · cases h

theorem replace_error {failure : Failure} (h : s.replace b = .error failure) :
    failure = mismatch b := by
  cases hp : s.position? b.name with
  | none =>
    rw [replace_new hp] at h
    cases h
  | some position =>
    cases hold : s.entries[position]? with
    | none =>
      rw [replace_lost hp hold] at h
      cases h
    | some old =>
      rw [replace_found hp hold] at h
      split at h
      · cases h
      · cases h
        rfl

theorem remove_missing (hp : s.position? name = none) : s.remove name = (none, s) := by
  simp [remove, hp]

theorem remove_found (hp : s.position? name = some position) :
    s.remove name = (s.entries[position]?, s.drop position name) := by
  simp [remove, hp, drop]

/-- The entries before and after the one at a position. -/
theorem split_entry (hold : s.entries[position]? = some old) : ∃ before after,
    before.length = position ∧ s.entries = before ++ old :: after ∧
      (∀ b, (s.place position b).entries = before ++ b :: after) ∧
      ∀ name, (s.drop position name).entries = before ++ after := by
  obtain ⟨hlt, hentry⟩ := List.getElem?_eq_some_iff.mp hold
  refine ⟨s.entries.take position, s.entries.drop (position + 1),
    List.length_take_of_le (Nat.le_of_lt hlt), ?_, ?_, ?_⟩
  · rw [← hentry, ← List.drop_eq_getElem_cons hlt, List.take_append_drop]
  · intro b
    exact List.set_eq_take_append_cons_drop.trans (if_pos hlt)
  · intro name
    exact List.eraseIdx_eq_take_drop_succ s.entries position

/-- The names of a list of bindings with their positions, the last first. -/
def positions (names : List Component) : List (Component × Nat) := names.zipIdx.reverse

theorem index_ofList (entries : List Binding) :
    (ofList entries).index = positions (entries.map (·.name)) := by
  simp [ofList, positions, List.zipIdx_map]

theorem positions_append (names : List Component) (name : Component) :
    positions (names ++ [name]) = (name, names.length) :: positions names := by
  simp [positions, List.zipIdx_append]

theorem lookup_positions {names : List Component} {name : Component} {position : Nat}
    (h : (positions names).lookup name = some position) : names[position]? = some name := by
  obtain ⟨before, after, he, _⟩ := List.lookup_eq_some_iff.mp h
  have hm : (name, position) ∈ positions names := by simp [he]
  exact List.mk_mem_zipIdx_iff_getElem?.mp (List.mem_reverse.mp hm)

theorem lookup_positions_none {names : List Component} {name : Component}
    (h : (positions names).lookup name = none) : name ∉ names := by
  intro hm
  obtain ⟨i, hi⟩ := List.mem_iff_getElem?.mp hm
  have hp : (name, i) ∈ positions names :=
    List.mem_reverse.mpr (List.mk_mem_zipIdx_iff_getElem?.mpr hi)
  simpa using List.lookup_eq_none_iff.mp h _ hp

theorem filter_zipIdx {names : List Component} {name : Component} (h : name ∉ names)
    (start : Nat) : (names.zipIdx start).filter (·.1 ≠ name) = names.zipIdx start := by
  apply List.filter_eq_self.mpr
  intro e he
  have hne : e.1 ≠ name := fun hn => h (hn ▸ List.fst_mem_of_mem_zipIdx he)
  simpa using hne

theorem shift_low (names : List Component) (gone start : Nat) (h : start + names.length ≤ gone) :
    shift gone (names.zipIdx start) = names.zipIdx start := by
  induction names generalizing start with
  | nil => rfl
  | cons name names ih =>
    simp only [List.length_cons] at h
    have hn : ¬ gone < start := by omega
    have ht := ih (start + 1) (by omega)
    simp only [shift] at ht
    simp only [shift, List.zipIdx_cons, List.map_cons, hn, if_false, ht]

theorem shift_high (names : List Component) (gone start : Nat) (h : gone ≤ start) :
    shift gone (names.zipIdx (start + 1)) = names.zipIdx start := by
  induction names generalizing start with
  | nil => rfl
  | cons name names ih =>
    have hg : gone < start + 1 := by omega
    have ht := ih (start + 1) (by omega)
    simp only [shift] at ht
    simp only [shift, List.zipIdx_cons, List.map_cons, hg, if_true, ht, Nat.add_sub_cancel]

/-- What is left of the positions when one name goes. -/
theorem shift_positions {before after : List Component} {name : Component}
    (h : name ∉ before ++ after) :
    shift before.length ((positions (before ++ name :: after)).filter (·.1 ≠ name)) =
      positions (before ++ after) := by
  obtain ⟨hb, ha⟩ := not_or.mp (mt List.mem_append.mpr h)
  have hf : (before ++ name :: after).zipIdx.filter (·.1 ≠ name) =
      before.zipIdx ++ after.zipIdx (before.length + 1) := by
    rw [List.zipIdx_append, List.filter_append, filter_zipIdx hb, List.zipIdx_cons,
      List.filter_cons_of_neg (by simp), Nat.zero_add, filter_zipIdx ha]
  have hs : shift before.length (before.zipIdx ++ after.zipIdx (before.length + 1)) =
      (before ++ after).zipIdx := by
    have hlow := shift_low before before.length 0 (by omega)
    have hhigh := shift_high after _ _ (Nat.le_refl before.length)
    simp only [shift] at hlow hhigh ⊢
    rw [List.map_append, hlow, hhigh, List.zipIdx_append, Nat.zero_add]
  simp only [positions, shift, List.filter_reverse, List.map_reverse] at hs ⊢
  rw [hf, hs]

/-- Every position in the index is that of an entry with the name it stands under. Names may repeat
among the entries, and entries may be missing from the index. -/
def Truthful (s : BindingSet) : Prop :=
  ∀ name position, (name, position) ∈ s.index →
    ∃ b, s.entries[position]? = some b ∧ b.name = name

theorem mem_index (h : s.position? name = some position) : (name, position) ∈ s.index := by
  obtain ⟨before, after, hindex, _⟩ := List.lookup_eq_some_iff.mp h
  simp [hindex]

theorem truthful_ofList (entries : List Binding) : (ofList entries).Truthful := by
  intro name position h
  rw [index_ofList] at h
  have hname := List.mk_mem_zipIdx_iff_getElem?.mp (List.mem_reverse.mp h)
  rw [List.getElem?_map] at hname
  exact Option.map_eq_some_iff.mp hname

/-- An entry is where it was, one place lower when it came after the one that is gone. -/
theorem getElem?_eraseIdx_shifted {entries : List Binding} {gone place : Nat} (h : place ≠ gone) :
    (entries.eraseIdx gone)[if gone < place then place - 1 else place]? = entries[place]? := by
  rw [List.getElem?_eraseIdx]
  split
  · have hlow : ¬ place - 1 < gone := by omega
    have hback : place - 1 + 1 = place := by omega
    rw [if_neg hlow, hback]
  · rw [if_pos (by omega)]

theorem lookup_shift (gone : Nat) (index : List (Component × Nat)) (name : Component) :
    (shift gone index).lookup name =
      (index.lookup name).map fun place => if gone < place then place - 1 else place := by
  induction index with
  | nil => rfl
  | cons entry index ih =>
    obtain ⟨here, place⟩ := entry
    simp only [shift, List.map_cons, lookup_cons_if] at ih ⊢
    by_cases hname : name = here
    · simp [hname]
    · simp [hname, ih]

theorem position?_append (s : BindingSet) (b : Binding) (name : Component) :
    (s.append b).position? name =
      if b.name = name then some s.entries.length else s.position? name :=
  (lookup_cons_if name b.name s.entries.length s.index).trans (if_congr eq_comm rfl rfl)

/-- The positions of the other names after one name is gone. -/
theorem position?_drop (s : BindingSet) (position : Nat) (gone name : Component) :
    (s.drop position gone).position? name =
      if gone = name then none
      else (s.position? name).map fun place => if position < place then place - 1 else place := by
  have hlookup := lookup_filter_ne name gone s.index
  simp only [position?, drop, lookup_shift, hlookup, eq_comm]
  split <;> rfl

namespace Truthful

theorem entry (h : s.Truthful) (hp : s.position? name = some position) :
    ∃ b, s.entries[position]? = some b ∧ b.name = name :=
  h name position (mem_index hp)

theorem get?_none (h : s.Truthful) (hb : s.get? name = none) : s.position? name = none := by
  cases hp : s.position? name with
  | none => rfl
  | some position =>
    obtain ⟨b, hentry, _⟩ := h.entry hp
    simp [get?, hp, hentry] at hb

/-- What is found stands at the position of its name. -/
theorem get?_some (h : s.Truthful) (hb : s.get? name = some b) :
    ∃ position, s.position? name = some position ∧ s.entries[position]? = some b ∧
      b.name = name := by
  cases hp : s.position? name with
  | none => simp [get?, hp] at hb
  | some position =>
    obtain ⟨c, hentry, hname⟩ := h.entry hp
    simp only [get?, hp, hentry, Option.some.injEq] at hb
    subst hb
    exact ⟨position, rfl, hentry, hname⟩

/-- The positions of two names are two positions. -/
theorem position_ne (h : s.Truthful) (hb : s.entries[position]? = some b) (hne : b.name ≠ name)
    {place : Nat} (hm : (name, place) ∈ s.index) : place ≠ position := by
  intro he
  obtain ⟨c, hc, hname⟩ := h name place hm
  rw [he, hb, Option.some.injEq] at hc
  exact hne (hc ▸ hname)

theorem replaced {o : Option Binding} (h : s.Truthful) (ht : s.replace b = .ok (o, t)) :
    (s.position? b.name = none ∧ t = s.append b) ∨
      ∃ position old, s.position? b.name = some position ∧ s.entries[position]? = some old ∧
        old.name = b.name ∧ old.type = b.type ∧ t = s.place position b := by
  rcases replace_ok ht with hnew | ⟨position, hp, ⟨hnone, _⟩ | ⟨old, hold, htype, hplace⟩⟩
  · exact .inl hnew
  · obtain ⟨old, hold, _⟩ := h.entry hp
    rw [hnone] at hold
    cases hold
  · obtain ⟨_, hentry, hname⟩ := h.entry hp
    cases hentry.symm.trans hold
    exact .inr ⟨position, old, hp, hold, hname, htype, hplace⟩

theorem removed (h : s.Truthful) (name : Component) :
    (s.position? name = none ∧ s.remove name = (none, s)) ∨
      ∃ position old, s.position? name = some position ∧ s.entries[position]? = some old ∧
        old.name = name ∧ s.remove name = (some old, s.drop position name) := by
  cases hp : s.position? name with
  | none => exact .inl ⟨rfl, remove_missing hp⟩
  | some position =>
    obtain ⟨old, hold, hname⟩ := h.entry hp
    exact .inr ⟨position, old, rfl, hold, hname, by rw [remove_found hp, hold]⟩

theorem get?_append (h : s.Truthful) (b : Binding) (name : Component) :
    (s.append b).get? name = if b.name = name then some b else s.get? name := by
  rw [get?_eq, get?_eq, position?_append]
  split
  · simp [BindingSet.append]
  · cases hp : s.position? name with
    | none => rfl
    | some position =>
      obtain ⟨c, hc, _⟩ := h.entry hp
      have hlt := (List.getElem?_eq_some_iff.mp hc).1
      exact List.getElem?_append_left hlt

theorem get?_place (h : s.Truthful) (hp : s.position? b.name = some position)
    (hold : s.entries[position]? = some old) (hsame : old.name = b.name) (name : Component) :
    (s.place position b).get? name = if b.name = name then some b else s.get? name := by
  have hposition : (s.place position b).position? name = s.position? name := rfl
  rw [get?_eq, get?_eq, hposition]
  split
  · rename_i hname
    have hlt := (List.getElem?_eq_some_iff.mp hold).1
    rw [← hname, hp]
    exact List.getElem?_set_self hlt
  · rename_i hname
    cases hplace : s.position? name with
    | none => rfl
    | some place =>
      have hne : old.name ≠ name := by
        rw [hsame]
        exact hname
      exact List.getElem?_set_ne (h.position_ne hold hne (mem_index hplace)).symm

theorem get?_drop (h : s.Truthful) (hold : s.entries[position]? = some old) (name : Component) :
    (s.drop position old.name).get? name = if old.name = name then none else s.get? name := by
  rw [get?_eq, get?_eq, position?_drop]
  split
  · rfl
  · rename_i hname
    cases hplace : s.position? name with
    | none => rfl
    | some place =>
      have hne := h.position_ne hold hname (mem_index hplace)
      exact getElem?_eraseIdx_shifted hne

end Truthful

/-- No name is bound twice, and the index is the one that the entries would get if the set were
made from them anew. -/
structure Regular (s : BindingSet) : Prop where
  distinct : (s.entries.map (·.name)).Nodup
  indexed : s.index = positions (s.entries.map (·.name))

theorem regular_empty : empty.Regular := ⟨List.nodup_nil, rfl⟩

/-- What is kept of a regular set are its entries. -/
theorem Regular.eq_ofList (h : s.Regular) : ofList s.entries = s := by
  obtain ⟨entries, index⟩ := s
  have hi := h.indexed
  simp only [ofList, mk.injEq, true_and]
  exact (index_ofList entries).trans hi.symm

theorem regular_ofList {entries : List Binding} (h : (entries.map (·.name)).Nodup) :
    (ofList entries).Regular := ⟨h, index_ofList entries⟩

theorem Regular.truthful (h : s.Regular) : s.Truthful := by
  rw [← h.eq_ofList]
  exact truthful_ofList s.entries

theorem Regular.unnamed (h : s.Regular) {name : Component} (hp : s.position? name = none)
    {b : Binding} (hb : b ∈ s.entries) : b.name ≠ name := by
  rw [position?, h.indexed] at hp
  rintro rfl
  exact lookup_positions_none hp (List.mem_map_of_mem hb)

/-- The entries beside the one at the position of a name have other names. -/
theorem Regular.split_named (h : s.Regular) {name : Component} {before after : List Binding}
    {b c : Binding} (he : s.entries = before ++ b :: after) (hb : b.name = name)
    (hc : c ∈ before ++ after) : c.name ≠ name := by
  have hd := h.distinct
  simp only [he, List.map_append, List.map_cons, hb] at hd
  obtain ⟨_, hda, hba⟩ := List.nodup_append.mp hd
  rcases List.mem_append.mp hc with hbefore | hafter
  · exact hba _ (List.mem_map_of_mem hbefore) name List.mem_cons_self
  · rintro rfl
    exact (List.nodup_cons.mp hda).1 (List.mem_map_of_mem hafter)

namespace Regular

theorem append (h : s.Regular) (hp : s.position? b.name = none) : (s.append b).Regular := by
  constructor
  · have hnew : b.name ∉ s.entries.map (·.name) := by
      intro hm
      obtain ⟨c, hc, hname⟩ := List.mem_map.mp hm
      exact h.unnamed hp hc hname
    simpa [BindingSet.append] using h.distinct.concat hnew
  · simp only [BindingSet.append, List.map_append, List.map_singleton, positions_append,
      h.indexed, List.length_map]

/-- The name at this position stays what it is, and so do all names. -/
theorem place (h : s.Regular) (hold : s.entries[position]? = some old)
    (hsame : old.name = b.name) : (s.place position b).Regular := by
  obtain ⟨before, after, _, he, hplace, _⟩ := split_entry hold
  have hnames : (s.place position b).entries.map (·.name) = s.entries.map (·.name) := by
    simp [hplace, he, hsame]
  exact ⟨hnames ▸ h.distinct, hnames ▸ h.indexed⟩

theorem drop (h : s.Regular) (hold : s.entries[position]? = some old) :
    (s.drop position old.name).Regular := by
  obtain ⟨before, after, hl, he, _, hdrop⟩ := split_entry hold
  have hgone : old.name ∉ before.map (·.name) ++ after.map (·.name) := by
    rw [← List.map_append]
    intro hm
    obtain ⟨c, hc, hname⟩ := List.mem_map.mp hm
    exact h.split_named he rfl hc hname
  constructor
  · have hd := h.distinct
    rw [he, List.map_append, List.map_cons] at hd
    rw [hdrop, List.map_append]
    exact hd.sublist (List.Sublist.append_left (List.sublist_cons_self _ _) _)
  · have hshift := shift_positions hgone
    rw [List.length_map, hl] at hshift
    rw [hdrop, BindingSet.drop, h.indexed, he]
    simpa only [List.map_append, List.map_cons] using hshift

theorem insert (h : s.Regular) (ht : s.insert b = .ok t) : t.Regular := by
  obtain ⟨hp, rfl⟩ := insert_ok ht
  exact h.append hp

theorem replace {old : Option Binding} (h : s.Regular) (ht : s.replace b = .ok (old, t)) :
    t.Regular := by
  rcases h.truthful.replaced ht with ⟨hp, rfl⟩ | ⟨_, _, _, hold, hsame, _, rfl⟩
  · exact h.append hp
  · exact h.place hold hsame

theorem remove (h : s.Regular) (name : Component) : (s.remove name).2.Regular := by
  rcases h.truthful.removed name with ⟨_, hremove⟩ | ⟨_, _, _, hold, rfl, hremove⟩
  · rw [hremove]
    exact h
  · rw [hremove]
    exact h.drop hold

/-- What a regular set finds for a name is the one entry that has it. -/
theorem get?_iff (h : s.Regular) {name : Component} {b : Binding} :
    s.get? name = some b ↔ b ∈ s.entries ∧ b.name = name := by
  constructor
  · intro hb
    obtain ⟨_, _, hentry, hname⟩ := h.truthful.get?_some hb
    exact ⟨List.mem_of_getElem? hentry, hname⟩
  · rintro ⟨hmem, hname⟩
    cases hc : s.get? name with
    | none => exact absurd hname (h.unnamed (h.truthful.get?_none hc) hmem)
    | some c =>
      obtain ⟨_, _, hentry, hsame⟩ := h.truthful.get?_some hc
      have hone := List.inj_on_of_nodup_map h.distinct
      rw [hone (List.mem_of_getElem? hentry) hmem (hsame.trans hname.symm)]

theorem insert_free (h : s.Regular) {b : Binding} (hf : s.get? b.name = none) :
    ∃ t, s.insert b = .ok t := ⟨_, insert_new (h.truthful.get?_none hf)⟩

theorem get?_insert {b : Binding} (h : s.Regular) (ht : s.insert b = .ok t)
    (name : Component) :
    s.get? b.name = none ∧ t.get? name = if b.name = name then some b else s.get? name := by
  obtain ⟨hp, rfl⟩ := insert_ok ht
  exact ⟨get?_free hp, h.truthful.get?_append b name⟩

theorem get?_replace {b : Binding} {old : Option Binding} (h : s.Regular)
    (ht : s.replace b = .ok (old, t)) (name : Component) :
    t.get? name = if b.name = name then some b else s.get? name := by
  rcases h.truthful.replaced ht with ⟨_, rfl⟩ | ⟨_, _, hp, hold, hsame, _, rfl⟩
  · exact h.truthful.get?_append b name
  · exact h.truthful.get?_place hp hold hsame name

theorem get?_remove (h : s.Regular) (gone name : Component) :
    (s.remove gone).2.get? name = if gone = name then none else s.get? name := by
  rcases h.truthful.removed gone with ⟨hp, hremove⟩ | ⟨_, _, _, hold, rfl, hremove⟩
  · rw [hremove]
    split
    · rename_i hname
      exact get?_free (hname ▸ hp)
    · rfl
  · rw [hremove]
    exact h.truthful.get?_drop hold name

end Regular

end Naming.BindingSet
