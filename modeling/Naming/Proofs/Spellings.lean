import Mathlib.Logic.Function.Basic
import Naming.Name.Written

namespace Naming.Name

theorem tokens_plain {c : Char} (h : isReserved c = false) (cs : List Char) :
    tokens (c :: cs) = .letter c :: tokens cs := by
  simp only [isReserved, Bool.or_eq_false_iff, decide_eq_false_iff_not] at h
  obtain ⟨⟨hslash, hdot⟩, hescape⟩ := h
  apply tokens.eq_6
  · intro _ _ hc
    exact absurd hc hescape
  · intro hc
    exact absurd hc hescape
  · exact hslash
  · exact hdot

/-- Every character that is written with its escapes is met as a letter. -/
@[simp]
theorem tokens_escape (cs rest : List Char) :
    tokens (escape cs ++ rest) = cs.map .letter ++ tokens rest := by
  induction cs with
  | nil => rfl
  | cons c cs ih =>
    cases hc : isReserved c with
    | true => simp [escape, hc, tokens, ih]
    | false => simp [escape, hc, tokens_plain hc, ih]

namespace Draft

/-- The tokens that lead a reader to a draft. -/
def tokens (d : Draft) : List Token :=
  d.id.map .letter ++
    match d.kind with
    | none => []
    | some kind => .dot :: kind.map .letter

/-- The draft that a component is read from. -/
def ofComponent (c : Component) : Draft :=
  ⟨c.id.toList, if c.kind.isEmpty then none else some c.kind.toList⟩

@[simp]
theorem component_ofComponent (c : Component) : (ofComponent c).component = c := by
  obtain ⟨id, kind⟩ := c
  by_cases h : kind = ""
  · simp [component, ofComponent, h]
  · simp [component, ofComponent, h]

theorem tokens_push (d : Draft) (c : Char) : (d.push c).tokens = d.tokens ++ [.letter c] := by
  obtain ⟨id, kind⟩ := d
  cases kind <;> simp [push, tokens]

end Draft

theorem tokens_written (c : Component) (rest : List Char) :
    tokens (c.written ++ rest) = (Draft.ofComponent c).tokens ++ tokens rest := by
  by_cases h : c.kind = ""
  · simp [Component.written, Draft.ofComponent, Draft.tokens, h]
  · simp [Component.written, Draft.ofComponent, Draft.tokens, h, tokens]

theorem readLabels_letters (text : String) (d : Draft) (cs : List Char) (ts : List Token) :
    readLabels text d (cs.map .letter ++ ts) = readLabels text (cs.foldl Draft.push d) ts := by
  induction cs generalizing d with
  | nil => rfl
  | cons c cs ih => exact ih (d.push c)

theorem foldl_push_id (id cs : List Char) :
    cs.foldl Draft.push ⟨id, none⟩ = ⟨id ++ cs, none⟩ := by
  induction cs generalizing id with
  | nil => simp
  | cons c cs ih => simp [Draft.push, ih]

theorem foldl_push_kind (id kind cs : List Char) :
    cs.foldl Draft.push ⟨id, some kind⟩ = ⟨id, some (kind ++ cs)⟩ := by
  induction cs generalizing kind with
  | nil => simp
  | cons c cs ih => simp [Draft.push, ih]

/-- A reader who starts anew and meets the tokens of a draft has that draft. -/
theorem readLabels_draft (text : String) (d : Draft) (ts : List Token) :
    readLabels text {} (d.tokens ++ ts) = readLabels text d ts := by
  obtain ⟨id, kind⟩ := d
  cases kind with
  | none => simp [Draft.tokens, readLabels_letters, foldl_push_id]
  | some kind =>
    simp [Draft.tokens, readLabels_letters, foldl_push_id, readLabels, foldl_push_kind]

theorem ofComponent?_val (label : Label) : Label.ofComponent? label.val = some label := by
  simp [Label.ofComponent?, label.property]

/-- The labels of a name that was written are read one by one. -/
theorem readLabels_written (text : String) (label : Label) (rest : List Label) :
    readLabels text {} (tokens (label.val.written ++ writtenRest rest)) =
      .ok (label :: rest) := by
  induction rest generalizing label with
  | nil =>
    rw [writtenRest, tokens_written, readLabels_draft]
    simp [tokens, readLabels, ofComponent?_val]
  | cons next rest ih =>
    rw [writtenRest, tokens_written, readLabels_draft]
    simp [tokens, readLabels, ofComponent?_val, ih, Except.map]

theorem ofText_text (n : Name) : ofText n.text = .ok n := by
  obtain ⟨first, rest⟩ := n
  have hread := readLabels_written (text ⟨first, rest⟩) first rest
  have htext : (text ⟨first, rest⟩).toList = first.val.written ++ writtenRest rest := by
    simp [text, written]
  unfold ofText
  split
  · -- an empty text has no labels in it
    rename_i hempty
    rw [← htext, String.isEmpty_iff.mp hempty] at hread
    cases hread
  · simp [htext, hread]

theorem labelsFrom_named {components : List Component}
    (h : ∀ c ∈ components, c.id ≠ "" ∨ c.kind ≠ "") (position : Nat) :
    ∃ labels, labelsFrom position components = .ok labels ∧
      labels.map Subtype.val = components := by
  induction components generalizing position with
  | nil => exact ⟨[], rfl, rfl⟩
  | cons c rest ih =>
    have hnamed : c.isNamed = true := by
      have hc := h c List.mem_cons_self
      simpa [Component.isNamed, or_iff_not_imp_left] using hc
    have hrest : ∀ d ∈ rest, d.id ≠ "" ∨ d.kind ≠ "" := by
      intro d hd
      exact h d (List.mem_cons_of_mem _ hd)
    obtain ⟨labels, hlabels, hvals⟩ := ih hrest (position + 1)
    refine ⟨⟨c, hnamed⟩ :: labels, ?_, ?_⟩
    · simp [labelsFrom, hnamed, hlabels, Except.map]
    · simp [hvals]

theorem ofComponents_named {components : List Component} (hne : components ≠ [])
    (h : ∀ c ∈ components, c.id ≠ "" ∨ c.kind ≠ "") :
    ∃ n, ofComponents components = .ok n ∧ n.components = components := by
  obtain ⟨labels, hlabels, hvals⟩ := labelsFrom_named h 0
  cases labels with
  | nil => exact absurd hvals.symm hne
  | cons first rest => exact ⟨⟨first, rest⟩, by simp [ofComponents, hlabels], hvals⟩

/-- The text of a name is read as this name, whatever reserved characters it has. So different names
have different texts, and a text that was written by this is written again as it is. -/
theorem text_read_back :
    (∀ components : List Component, components ≠ [] →
      (∀ c ∈ components, c.id ≠ "" ∨ c.kind ≠ "") →
      ∃ n, ofComponents components = .ok n ∧ n.components = components ∧
        ofText n.text = .ok n) ∧
    (∀ n, ofText n.text = .ok n) ∧
    Function.Injective text ∧
    ∀ t n, ofText t = .ok n → ofText n.text = ofText t ∧ (ofText n.text).map text = .ok n.text := by
  refine ⟨?_, ofText_text, ?_, ?_⟩
  · intro components hne h
    obtain ⟨n, hn, hcomponents⟩ := ofComponents_named hne h
    exact ⟨n, hn, hcomponents, ofText_text n⟩
  · intro p q h
    have hread := ofText_text q
    rw [← h, ofText_text p] at hread
    exact Except.ok.inj hread
  · intro t n h
    rw [ofText_text, h]
    exact ⟨rfl, rfl⟩

/-- A name with all three reserved characters in an identifier and a component that is nothing but
a kind; and a text with an escape and a dot that are not needed. -/
theorem text_read_back_reserved :
    let components : List Component := [⟨"x/y.z\\", "k."⟩, ⟨"", "svc"⟩]
    let n : Name := ⟨⟨⟨"a", ""⟩, by decide⟩, [⟨⟨"b", ""⟩, by decide⟩]⟩
    (components ≠ [] ∧ (∀ c ∈ components, c.id ≠ "" ∨ c.kind ≠ "") ∧
      ∃ m, ofComponents components = .ok m ∧ m.text = "x\\/y\\.z\\\\.k\\./.svc" ∧
        ofText "x\\/y\\.z\\\\.k\\./.svc" = .ok m) ∧
    ofText "\\a./b" = .ok n ∧ n.text = "a/b" ∧ ofText "a/b" = ofText "\\a./b" := by
  intro components n
  obtain ⟨hmakes, _, _, hagain⟩ := text_read_back
  have hne : components ≠ [] := by decide
  have hnamed : ∀ c ∈ components, c.id ≠ "" ∨ c.kind ≠ "" := by decide
  obtain ⟨m, hm, _, hback⟩ := hmakes components hne hnamed
  have hwritten : m.text = "x\\/y\\.z\\\\.k\\./.svc" := by
    have hlabels : ofComponents components =
        .ok ⟨⟨⟨"x/y.z\\", "k."⟩, by decide⟩, [⟨⟨"", "svc"⟩, by decide⟩]⟩ := rfl
    cases hm.symm.trans hlabels
    decide +kernel
  have hread : ofText "\\a./b" = .ok n := by rfl
  have htext : n.text = "a/b" := by decide +kernel
  exact ⟨⟨hne, hnamed, m, hm, hwritten, hwritten ▸ hback⟩, hread, htext,
    htext ▸ (hagain _ n hread).1⟩

end Naming.Name
