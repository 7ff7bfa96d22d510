import Mathlib.Data.List.Induction
import Naming.Proofs.BindingSets

namespace Naming.BindingSet

/-- What may be done with a set of bindings. -/
inductive Step where
  | insert (b : Binding)
  | replace (b : Binding)
  | remove (name : Component)
  | get (name : Component)
  | page (max : Nat)
  | rebuild

/-- What comes of a step. -/
inductive Outcome where
  | inserted
  | replaced (old : Option Binding)
  | removed (old : Option Binding)
  | found (b : Option Binding)
  | paged (page rest : List Binding)
  | rebuilt
  | refused (failure : Failure)
deriving DecidableEq

/-- A step that is refused leaves the set as it was. -/
def step (s : BindingSet) : Step → Outcome × BindingSet
  | .insert b =>
    match s.insert b with
    | .error failure => (.refused failure, s)
    | .ok t => (.inserted, t)
  | .replace b =>
    match s.replace b with
    | .error failure => (.refused failure, s)
    | .ok (old, t) => (.replaced old, t)
  | .remove name => (.removed (s.remove name).1, (s.remove name).2)
  | .get name => (.found (s.get? name), s)
  | .page max => (.paged (s.page max).1 (s.page max).2, s)
  | .rebuild => (.rebuilt, ofList s.entries)

/-- Takes one step after the other, and tells what came of each. -/
def run (s : BindingSet) : List Step → List Outcome × BindingSet
  | [] => ([], s)
  | step :: steps =>
    let first := s.step step
    let rest := run first.2 steps
    (first.1 :: rest.1, rest.2)

variable {s t : BindingSet} {b old : Binding} {name : Component} {position : Nat}

/-- What a step does. Whatever it reads or changes is an entry with the name of the step. -/
inductive Does (s : BindingSet) : Step → Outcome → BindingSet → Prop
  | inserted {b : Binding} (free : s.position? b.name = none) :
      Does s (.insert b) .inserted (s.append b)
  | taken {b : Binding} {position : Nat} (here : s.position? b.name = some position) :
      Does s (.insert b) (.refused (.alreadyBound b.name)) s
  | added {b : Binding} (free : s.position? b.name = none) :
      Does s (.replace b) (.replaced none) (s.append b)
  | replaced {b old : Binding} {position : Nat} (here : s.position? b.name = some position)
      (entry : s.entries[position]? = some old) (same : old.name = b.name)
      (type : old.type = b.type) :
      Does s (.replace b) (.replaced (some old)) (s.place position b)
  | mismatched {b old : Binding} {position : Nat} (here : s.position? b.name = some position)
      (entry : s.entries[position]? = some old) (type : old.type ≠ b.type) :
      Does s (.replace b) (.refused (mismatch b)) s
  | missing {name : Component} (free : s.position? name = none) :
      Does s (.remove name) (.removed none) s
  | removed {name : Component} {old : Binding} {position : Nat}
      (here : s.position? name = some position) (entry : s.entries[position]? = some old)
      (same : old.name = name) : Does s (.remove name) (.removed (some old)) (s.drop position name)
  | found (name : Component) : Does s (.get name) (.found (s.get? name)) s
  | paged (max : Nat) : Does s (.page max) (.paged (s.entries.take max) (s.entries.drop max)) s
  | rebuilt : Does s .rebuild .rebuilt (ofList s.entries)

theorem insert_step (s : BindingSet) (b : Binding) :
    Does s (.insert b) (s.step (.insert b)).1 (s.step (.insert b)).2 := by
  cases hp : s.position? b.name with
  | none =>
    simp only [step, insert_new hp]
    exact .inserted hp
  | some position =>
    simp only [step, insert_taken hp]
    exact .taken hp

theorem Truthful.replace_step (h : s.Truthful) (b : Binding) :
    Does s (.replace b) (s.step (.replace b)).1 (s.step (.replace b)).2 := by
  cases hp : s.position? b.name with
  | none =>
    simp only [step, replace_new hp]
    exact .added hp
  | some position =>
    obtain ⟨old, hold, hname⟩ := h.entry hp
    simp only [step, replace_found hp hold]
    by_cases htype : old.type = b.type
    · simp only [htype, if_true]
      exact .replaced hp hold hname htype
    · simp only [htype, if_false]
      exact .mismatched hp hold htype

theorem Truthful.remove_step (h : s.Truthful) (name : Component) :
    Does s (.remove name) (s.step (.remove name)).1 (s.step (.remove name)).2 := by
  simp only [step]
  rcases h.removed name with ⟨hp, hremove⟩ | ⟨_, _, hp, hold, hname, hremove⟩
  · rw [hremove]
    exact .missing hp
  · rw [hremove]
    exact .removed hp hold hname

theorem Truthful.does (h : s.Truthful) (step : Step) :
    Does s step (s.step step).1 (s.step step).2 := by
  cases step with
  | insert b => exact insert_step s b
  | replace b => exact h.replace_step b
  | remove name => exact h.remove_step name
  | get name => exact .found name
  | page max => exact .paged max
  | rebuild => exact .rebuilt

namespace Truthful

theorem append (h : s.Truthful) (b : Binding) : (s.append b).Truthful := by
  intro name position hm
  rcases List.mem_cons.mp hm with hnew | hold
  · cases hnew
    exact ⟨b, by simp [BindingSet.append], rfl⟩
  · obtain ⟨c, hc, hname⟩ := h name position hold
    have hlt := (List.getElem?_eq_some_iff.mp hc).1
    exact ⟨c, (List.getElem?_append_left hlt).trans hc, hname⟩

theorem place (h : s.Truthful) (hold : s.entries[position]? = some old)
    (hsame : old.name = b.name) : (s.place position b).Truthful := by
  intro name place hm
  obtain ⟨c, hc, hname⟩ := h name place hm
  by_cases hplace : place = position
  · subst hplace
    rw [hold, Option.some.injEq] at hc
    have hlt := (List.getElem?_eq_some_iff.mp hold).1
    exact ⟨b, List.getElem?_set_self hlt, by rw [← hsame, hc, hname]⟩
  · exact ⟨c, (List.getElem?_set_ne (Ne.symm hplace)).trans hc, hname⟩

theorem drop (h : s.Truthful) (hold : s.entries[position]? = some old)
    (hsame : old.name = name) : (s.drop position name).Truthful := by
  intro other place hm
  obtain ⟨⟨here, before⟩, hbefore, he⟩ := List.mem_map.mp hm
  cases he
  obtain ⟨hmem, hne⟩ := List.mem_filter.mp hbefore
  have hother : old.name ≠ other := by
    have hne : other ≠ name := by simpa using hne
    rw [hsame]
    exact hne.symm
  obtain ⟨c, hc, hname⟩ := h other before hmem
  exact ⟨c, (getElem?_eraseIdx_shifted (h.position_ne hold hother hmem)).trans hc, hname⟩

end Truthful

variable {step : Step} {outcome : Outcome}

/-- What one step preserves. -/
theorem Does.truthful (hdoes : Does s step outcome t) (h : s.Truthful) : t.Truthful := by
  cases hdoes with
  | inserted => exact h.append _
  | taken => exact h
  | added => exact h.append _
  | replaced _ hold hsame => exact h.place hold hsame
  | mismatched => exact h
  | missing => exact h
  | removed _ hold hsame => exact h.drop hold hsame
  | found => exact h
  | paged => exact h
  | rebuilt => exact truthful_ofList _

/-- What all steps preserve. -/
theorem Truthful.run (h : s.Truthful) (steps : List Step) : (s.run steps).2.Truthful := by
  induction steps generalizing s with
  | nil => exact h
  | cons step steps ih => exact ih ((h.does step).truthful h)

/-- Whether a step leaves it to others what a name is found as. -/
def Step.Spares (name : Component) : Step → Prop
  | .insert b | .replace b => b.name ≠ name
  | .remove gone => gone ≠ name
  | .get _ | .page _ => True
  | .rebuild => False

theorem Does.others (hdoes : Does s step outcome t) (h : s.Truthful) (hspares : step.Spares name) :
    t.get? name = s.get? name := by
  cases hdoes with
  | inserted => exact (h.get?_append _ name).trans (if_neg hspares)
  | taken => rfl
  | added => exact (h.get?_append _ name).trans (if_neg hspares)
  | replaced hp hold hsame =>
    exact (h.get?_place hp hold hsame name).trans (if_neg hspares)
  | mismatched => rfl
  | missing => rfl
  | removed _ hold hsame =>
    subst hsame
    exact (h.get?_drop hold name).trans (if_neg hspares)
  | found => rfl
  | paged => rfl
  | rebuilt => exact hspares.elim

theorem ofList_append (entries : List Binding) (b : Binding) :
    ofList (entries ++ [b]) = (ofList entries).append b := by
  have hindex := index_ofList (entries ++ [b])
  rw [List.map_append, List.map_singleton, positions_append, ← index_ofList,
    List.length_map] at hindex
  exact congrArg (mk (entries ++ [b])) hindex

/-- A set made from a list finds the last entry of a name. -/
theorem get?_ofList (entries : List Binding) (name : Component) :
    (ofList entries).get? name = entries.reverse.find? (·.name = name) := by
  induction entries using List.reverseRecOn with
  | nil => rfl
  | append_singleton entries b ih =>
    rw [ofList_append, (truthful_ofList entries).get?_append, ih, List.reverse_append,
      List.reverse_singleton, List.singleton_append, List.find?_cons]
    by_cases hname : b.name = name
    · simp [hname]
    · simp [hname]

/-- A binding takes the place of the one that is found for its name, or is refused for its type. -/
theorem Does.changes (hdoes : Does s (.replace b) outcome t) (h : s.Truthful)
    (hb : s.get? b.name = some old) :
    (old.type ≠ b.type ∧ outcome = .refused (mismatch b) ∧ t = s) ∨
      outcome = .replaced (some old) ∧ t.get? b.name = some b ∧
        ∃ before after, s.entries = before ++ old :: after ∧ t.entries = before ++ b :: after := by
  cases hdoes with
  | added hfree =>
    rw [get?_free hfree] at hb
    cases hb
  | replaced hp hold hsame =>
    cases hb.symm.trans (get?_entry hp hold)
    obtain ⟨before, after, _, hentries, hplace, _⟩ := split_entry hold
    refine .inr ⟨rfl, ?_, before, after, hentries, hplace b⟩
    exact (h.get?_place hp hold hsame b.name).trans (if_pos rfl)
  | mismatched hp hold htype =>
    cases hb.symm.trans (get?_entry hp hold)
    exact .inl ⟨htype, rfl, rfl⟩

/-- The binding that is found for a name is the one that is removed. -/
theorem Does.deletes (hdoes : Does s (.remove name) outcome t) (h : s.Truthful)
    (hb : s.get? name = some old) :
    outcome = .removed (some old) ∧ t.get? name = none ∧
      ∃ before after, s.entries = before ++ old :: after ∧ t.entries = before ++ after := by
  cases hdoes with
  | missing hfree =>
    rw [get?_free hfree] at hb
    cases hb
  | removed hp hold hsame =>
    cases hb.symm.trans (get?_entry hp hold)
    subst hsame
    obtain ⟨before, after, _, hentries, _, hdrop⟩ := split_entry hold
    refine ⟨rfl, ?_, before, after, hentries, hdrop _⟩
    exact (h.get?_drop hold old.name).trans (if_pos rfl)

/-- A set is safe whatever list it was made from, even one that repeats names: a step concerns one
entry with the name it is for, and what is found for other names stays. -/
theorem run_safe (entries : List Binding) (steps : List Step) :
    let t := ((ofList entries).run steps).2
    (∀ name position, (name, position) ∈ t.index →
      ∃ b, t.entries[position]? = some b ∧ b.name = name) ∧
    (∀ name b, t.get? name = some b → b ∈ t.entries ∧ b.name = name) ∧
    (∀ name, (ofList entries).get? name = entries.reverse.find? (·.name = name)) ∧
    (∀ b old, t.get? b.name = some old →
      (old.type ≠ b.type ∧ t.step (.replace b) = (.refused (mismatch b), t)) ∨
      ∃ before after u, t.step (.replace b) = (.replaced (some old), u) ∧
        t.entries = before ++ old :: after ∧ u.entries = before ++ b :: after ∧
        u.get? b.name = some b) ∧
    (∀ name old, t.get? name = some old →
      ∃ before after u, t.step (.remove name) = (.removed (some old), u) ∧
        t.entries = before ++ old :: after ∧ u.entries = before ++ after ∧ u.get? name = none) ∧
    ∀ step name, step.Spares name → (t.step step).2.get? name = t.get? name := by
  intro t
  have h : t.Truthful := (truthful_ofList entries).run steps
  refine ⟨h, ?_, get?_ofList entries, ?_, ?_, ?_⟩
  · intro name b hb
    obtain ⟨position, _, hentry, hname⟩ := h.get?_some hb
    exact ⟨List.mem_of_getElem? hentry, hname⟩
  · intro b old hb
    rcases (h.does (.replace b)).changes h hb with ⟨htype, hrefused, hsame⟩ |
      ⟨hreplaced, hfound, before, after, hentries, hplaced⟩
    · exact .inl ⟨htype, Prod.ext hrefused hsame⟩
    · exact .inr ⟨before, after, _, Prod.ext hreplaced rfl, hentries, hplaced, hfound⟩
  · intro name old hb
    obtain ⟨hremoved, hgone, before, after, hentries, hleft⟩ :=
      (h.does (.remove name)).deletes h hb
    exact ⟨before, after, _, Prod.ext hremoved rfl, hentries, hleft, hgone⟩
  · intro step name hspares
    exact (h.does step).others h hspares

/-- A name that is bound twice and a name that is no label, after a step that moved their
positions: the later binding of the two is removed. -/
theorem run_safe_repeated :
    let entries : List Binding := [⟨⟨"a", ""⟩, .object "1"⟩, ⟨⟨"b", ""⟩, .object "2"⟩,
      ⟨⟨"a", ""⟩, .context ⟨"NC3"⟩⟩, ⟨⟨"", ""⟩, .object "4"⟩]
    let t := ((ofList entries).run [.remove ⟨"b", ""⟩, .replace ⟨⟨"", ""⟩, .object "5"⟩]).2
    (⟨"", ""⟩, 2) ∈ t.index ∧ t.get? ⟨"a", ""⟩ = some ⟨⟨"a", ""⟩, .context ⟨"NC3"⟩⟩ ∧
    (∃ before after u, t.step (.remove ⟨"a", ""⟩) =
        (.removed (some ⟨⟨"a", ""⟩, .context ⟨"NC3"⟩⟩), u) ∧
      t.entries = before ++ ⟨⟨"a", ""⟩, .context ⟨"NC3"⟩⟩ :: after ∧ u.entries = before ++ after ∧
      u.get? ⟨"a", ""⟩ = none) ∧
    (Step.remove ⟨"a", ""⟩).Spares ⟨"", ""⟩ ∧
    (t.step (.remove ⟨"a", ""⟩)).2.get? ⟨"", ""⟩ = t.get? ⟨"", ""⟩ := by
  intro entries t
  obtain ⟨_, _, _, _, hdeletes, hothers⟩ := run_safe entries
    [.remove ⟨"b", ""⟩, .replace ⟨⟨"", ""⟩, .object "5"⟩]
  have hfound : t.get? ⟨"a", ""⟩ = some ⟨⟨"a", ""⟩, .context ⟨"NC3"⟩⟩ := by decide +kernel
  have hspares : (Step.remove ⟨"a", ""⟩).Spares ⟨"", ""⟩ := by simp [Step.Spares]
  exact ⟨by decide +kernel, hfound, hdeletes _ _ hfound, hspares, hothers _ _ hspares⟩

end Naming.BindingSet
