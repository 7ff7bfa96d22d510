import Naming.Proofs.Namesakes

namespace Naming.BindingSet

/-- The first of the bindings with a name. -/
def named? (entries : List Binding) (name : Component) : Option Binding :=
  entries.find? (·.name = name)

/-- What comes of a step, told of bindings in the order in which their names were bound, without
positions beside them. -/
def told (entries : List Binding) : Step → Outcome × List Binding
  | .insert b =>
    match named? entries b.name with
    | some _ => (.refused (.alreadyBound b.name), entries)
    | none => (.inserted, entries ++ [b])
  | .replace b =>
    match named? entries b.name with
    | some old =>
      if old.type = b.type then
        (.replaced (some old), entries.map fun c => if c.name = b.name then b else c)
      else (.refused (mismatch b), entries)
    | none => (.replaced none, entries ++ [b])
  | .remove name => (.removed (named? entries name), entries.filter (·.name ≠ name))
  | .get name => (.found (named? entries name), entries)
  | .page max => (.paged (entries.take max) (entries.drop max), entries)
  | .rebuild => (.rebuilt, entries)

def toldAll (entries : List Binding) : List Step → List Outcome × List Binding
  | [] => ([], entries)
  | step :: steps =>
    let first := told entries step
    let rest := toldAll first.2 steps
    (first.1 :: rest.1, rest.2)

variable {s t u : BindingSet} {b old : Binding} {name : Component} {position : Nat}

namespace Regular

/-- Regular sets are known by their entries. -/
theorem ext (h : s.Regular) (h' : t.Regular) (he : s.entries = t.entries) : s = t := by
  rw [← h.eq_ofList, ← h'.eq_ofList, he]

theorem get?_eq_named (h : s.Regular) (name : Component) :
    s.get? name = named? s.entries name := by
  cases hn : named? s.entries name with
  | some b =>
    have hname : b.name = name := by simpa using List.find?_some hn
    exact h.get?_iff.mpr ⟨List.mem_of_find?_eq_some hn, hname⟩
  | none =>
    cases hb : s.get? name with
    | none => rfl
    | some b =>
      obtain ⟨hmem, hname⟩ := h.get?_iff.mp hb
      have hother := List.find?_eq_none.mp hn b hmem
      exact absurd hname (by simpa using hother)

/-- The index has the position of each entry under its name, and nothing else. -/
theorem position?_iff (h : s.Regular) :
    s.position? name = some position ↔ (s.entries[position]?).map (·.name) = some name := by
  have hsound : ∀ place, s.position? name = some place →
      (s.entries.map (·.name))[place]? = some name := by
    intro place hp
    rw [position?, h.indexed] at hp
    exact lookup_positions hp
  rw [← List.getElem?_map]
  constructor
  · exact hsound position
  · intro hname
    cases hp : s.position? name with
    | none =>
      rw [position?, h.indexed] at hp
      exact absurd (List.mem_of_getElem? hname) (lookup_positions_none hp)
    | some place =>
      -- a name stands at one position only
      have hsame := hsound place hp
      have hlt := (List.getElem?_eq_some_iff.mp hsame).1
      rw [(List.getElem?_inj hlt h.distinct).mp (hsame.trans hname.symm)]

/-- What one step preserves. -/
theorem step (h : s.Regular) (step : Step) : (s.step step).2.Regular := by
  cases step with
  | insert b =>
    simp only [BindingSet.step]
    split
    · exact h
    · rename_i hinsert
      exact h.insert hinsert
  | replace b =>
    simp only [BindingSet.step]
    split
    · exact h
    · rename_i hreplace
      exact h.replace hreplace
  | remove name => exact h.remove name
  | get name => exact h
  | page max => exact h
  | rebuild => exact regular_ofList h.distinct

end Regular

theorem map_replaced {before after : List Binding} (hsame : old.name = b.name)
    (hothers : ∀ c ∈ before ++ after, c.name ≠ b.name) :
    (before ++ old :: after).map (fun c => if c.name = b.name then b else c) =
      before ++ b :: after := by
  have hkept : ∀ entries : List Binding, (∀ c ∈ entries, c.name ≠ b.name) →
      entries.map (fun c => if c.name = b.name then b else c) = entries := by
    intro entries hentries
    apply (List.map_congr_left _).trans (List.map_id _)
    intro c hc
    simp [hentries c hc]
  rw [List.map_append, List.map_cons, hkept before, hkept after, if_pos hsame]
  · intro c hc
    exact hothers c (List.mem_append_right _ hc)
  · intro c hc
    exact hothers c (List.mem_append_left _ hc)

theorem filter_removed {before after : List Binding} (hsame : old.name = name)
    (hothers : ∀ c ∈ before ++ after, c.name ≠ name) :
    (before ++ old :: after).filter (·.name ≠ name) = before ++ after := by
  rw [List.filter_append, List.filter_cons_of_neg (by simp [hsame]), ← List.filter_append]
  apply List.filter_eq_self.mpr
  intro c hc
  simp [hothers c hc]

/-- What a step does is what is told of it. -/
theorem Does.told {step : Step} {outcome : Outcome} (hdoes : Does s step outcome t)
    (h : s.Regular) : told s.entries step = (outcome, t.entries) := by
  have hnamed := h.get?_eq_named
  cases hdoes with
  | inserted hfree =>
    have hnone := get?_free hfree
    rw [hnamed] at hnone
    simp [BindingSet.told, hnone, append]
  | taken hp =>
    obtain ⟨c, hc, _⟩ := h.truthful.entry hp
    have hfound := get?_entry hp hc
    rw [hnamed] at hfound
    simp [BindingSet.told, hfound]
  | added hfree =>
    have hnone := get?_free hfree
    rw [hnamed] at hnone
    simp [BindingSet.told, hnone, append]
  | replaced hp hold hsame htype =>
    have hfound := get?_entry hp hold
    rw [hnamed] at hfound
    obtain ⟨before, after, _, hentries, hplace, _⟩ := split_entry hold
    have hmap := map_replaced hsame fun c hc => h.split_named hentries hsame hc
    simp only [BindingSet.told, hfound, htype, if_true, hplace]
    rw [hentries, hmap]
  | mismatched hp hold htype =>
    have hfound := get?_entry hp hold
    rw [hnamed] at hfound
    simp [BindingSet.told, hfound, htype]
  | @missing name hfree =>
    have hnone := get?_free hfree
    rw [hnamed] at hnone
    have hall : s.entries.filter (·.name ≠ name) = s.entries := by
      apply List.filter_eq_self.mpr
      intro c hc
      simpa using h.unnamed hfree hc
    rw [BindingSet.told, hnone, hall]
  | removed hp hold hsame =>
    have hfound := get?_entry hp hold
    rw [hnamed] at hfound
    obtain ⟨before, after, _, hentries, _, hdrop⟩ := split_entry hold
    have hfilter := filter_removed hsame fun c hc => h.split_named hentries hsame hc
    rw [BindingSet.told, hfound, hdrop, hentries, hfilter]
  | found name => simp [BindingSet.told, hnamed]
  | paged max => rfl
  | rebuilt => rfl

/-- What all steps do is what is told of them, and they leave a set whose names are distinct. -/
theorem Regular.run (h : s.Regular) (steps : List Step) :
    (s.run steps).2.Regular ∧
      toldAll s.entries steps = ((s.run steps).1, (s.run steps).2.entries) := by
  induction steps generalizing s with
  | nil => exact ⟨h, rfl⟩
  | cons step steps ih =>
    obtain ⟨hregular, hrest⟩ := ih (h.step step)
    refine ⟨hregular, ?_⟩
    simp only [toldAll, (h.truthful.does step).told h, hrest]
    rfl

/-- A binding that was put in is removed again without a trace. -/
theorem Regular.insert_remove (h : s.Regular) (ht : s.insert b = .ok t) :
    t.remove b.name = (some b, s) := by
  have hregular := (h.insert ht).remove b.name
  obtain ⟨hp, rfl⟩ := insert_ok ht
  have hposition : (s.append b).position? b.name = some s.entries.length := by
    rw [position?_append, if_pos rfl]
  have hentries : ((s.append b).drop s.entries.length b.name).entries = s.entries := by
    simp [BindingSet.append, BindingSet.drop, List.eraseIdx_append_of_length_le]
  rw [remove_found hposition] at hregular ⊢
  exact Prod.ext (by simp [BindingSet.append]) (hregular.ext h hentries)

/-- A set of bindings is an association list in the order in which the names were bound, and the
index never tells otherwise. -/
theorem run_told {entries : List Binding} (h : (entries.map (·.name)).Nodup) (steps : List Step) :
    let t := ((ofList entries).run steps).2
    toldAll entries steps = (((ofList entries).run steps).1, t.entries) ∧
    (t.entries.map (·.name)).Nodup ∧
    (∀ name position, t.position? name = some position ↔
      (t.entries[position]?).map (·.name) = some name) ∧
    ofList t.entries = t ∧
    ∀ b u, t.insert b = .ok u → u.remove b.name = (some b, t) := by
  intro t
  obtain ⟨hregular, htold⟩ := (regular_ofList h).run steps
  refine ⟨htold, hregular.distinct, ?_, hregular.eq_ofList, ?_⟩
  · intro name position
    exact hregular.position?_iff
  · intro b u hinsert
    exact hregular.insert_remove hinsert

/-- Bindings of both types: one is removed and bound anew, one is replaced, and one is refused for
its type. -/
theorem run_told_mixed :
    let entries : List Binding := [⟨⟨"a", ""⟩, .object "1"⟩, ⟨⟨"b", ""⟩, .context ⟨"NC2"⟩⟩,
      ⟨⟨"a", "k"⟩, .object "3"⟩]
    let steps : List Step := [.remove ⟨"a", ""⟩, .replace ⟨⟨"b", ""⟩, .context ⟨"NC4"⟩⟩, .rebuild,
      .insert ⟨⟨"a", ""⟩, .object "5"⟩, .replace ⟨⟨"a", "k"⟩, .context ⟨"NC6"⟩⟩, .page 2]
    (entries.map (·.name)).Nodup ∧
    ((ofList entries).run steps).1 = [.removed (some ⟨⟨"a", ""⟩, .object "1"⟩),
      .replaced (some ⟨⟨"b", ""⟩, .context ⟨"NC2"⟩⟩), .rebuilt, .inserted,
      .refused (.notAContext (.single ⟨⟨"a", "k"⟩, by decide⟩)),
      .paged [⟨⟨"b", ""⟩, .context ⟨"NC4"⟩⟩, ⟨⟨"a", "k"⟩, .object "3"⟩]
        [⟨⟨"a", ""⟩, .object "5"⟩]] := by
  intro entries steps
  have hdistinct : (entries.map (·.name)).Nodup := by decide +kernel
  obtain ⟨htold, _⟩ := run_told hdistinct steps
  refine ⟨hdistinct, ?_⟩
  rw [← congrArg Prod.fst htold]
  decide +kernel

/-- A context over an object is not always refused as no context: a name that is no label is
refused as such. -/
theorem replace_unnamed :
    let s := (empty.run [.insert ⟨⟨"", ""⟩, .object "1"⟩]).2
    s.get? ⟨"", ""⟩ = some ⟨⟨"", ""⟩, .object "1"⟩ ∧
    (∀ rest, (s.step (.replace ⟨⟨"", ""⟩, .context ⟨"NC1"⟩⟩)).1 ≠ .refused (.notAContext rest)) ∧
    (s.step (.replace ⟨⟨"", ""⟩, .context ⟨"NC1"⟩⟩)).1 =
      .refused (.invalidName "component 0 has neither id nor kind") := by
  intro s
  have hrefused : (s.step (.replace ⟨⟨"", ""⟩, .context ⟨"NC1"⟩⟩)).1 =
      .refused (.invalidName "component 0 has neither id nor kind") := by decide +kernel
  refine ⟨by decide +kernel, ?_, hrefused⟩
  intro rest h
  rw [hrefused] at h
  cases h

end Naming.BindingSet
