import Naming.Failure
import Naming.Proofs.Spellings

namespace Naming.Name

/-- How a text reads from left to right. An escape makes a letter of the character after it,
whatever that is, and dangles when there is none; a slash and a dot are marks otherwise, and every
other character is a letter. -/
inductive Reads : List Char → List Token → Prop
  | ended : Reads [] []
  | dangling : Reads ['\\'] [.dangling]
  | escaped {cs : List Char} {ts : List Token} (c : Char) (rest : Reads cs ts) :
      Reads ('\\' :: c :: cs) (.letter c :: ts)
  | slash {cs : List Char} {ts : List Token} (rest : Reads cs ts) :
      Reads ('/' :: cs) (.slash :: ts)
  | dot {cs : List Char} {ts : List Token} (rest : Reads cs ts) : Reads ('.' :: cs) (.dot :: ts)
  | plain {cs : List Char} {ts : List Token} {c : Char} (notEscape : c ≠ '\\') (notSlash : c ≠ '/')
      (notDot : c ≠ '.') (rest : Reads cs ts) : Reads (c :: cs) (.letter c :: ts)

variable {cs : List Char} {ts us : List Token} {text : String} {d : Draft}

/-- Every text reads in one way. -/
theorem reads_iff : Reads cs ts ↔ ts = tokens cs := by
  constructor
  · intro h
    induction h with
    | ended => rfl
    | dangling => rfl
    | escaped c _ ih => simp [tokens, ih]
    | slash _ ih => simp [tokens, ih]
    | dot _ ih => simp [tokens, ih]
    | plain hescape hslash hdot _ ih => simp [tokens_plain, isReserved, hescape, hslash, hdot, ih]
  · rintro rfl
    fun_induction tokens cs with
    | case1 => exact .ended
    | case2 c rest ih => exact .escaped c ih
    | case3 => exact .dangling
    | case4 rest ih => exact .slash ih
    | case5 rest ih => exact .dot ih
    | case6 c rest hescaped hdangling hslash hdot ih =>
      have hescape : c ≠ '\\' := by
        intro hc
        cases rest with
        | nil => exact hdangling hc rfl
        | cons next rest => exact hescaped next rest hc rfl
      exact .plain hescape hslash hdot ih

/-- A text whose escapes all have something to escape reads on after a slash as from the start. -/
theorem Reads.join {after : List Char} (h : Reads cs ts) (h' : Reads after us)
    (hwhole : .dangling ∉ ts) : Reads (cs ++ '/' :: after) (ts ++ .slash :: us) := by
  induction h with
  | ended => exact .slash h'
  | dangling => simp at hwhole
  | escaped c _ ih => exact .escaped c (ih (List.not_mem_of_not_mem_cons hwhole))
  | slash _ ih => exact .slash (ih (List.not_mem_of_not_mem_cons hwhole))
  | dot _ ih => exact .dot (ih (List.not_mem_of_not_mem_cons hwhole))
  | plain hescape hslash hdot _ ih =>
    exact .plain hescape hslash hdot (ih (List.not_mem_of_not_mem_cons hwhole))

theorem tokens_join {before after : List Char} (h : .dangling ∉ tokens before) :
    tokens (before ++ '/' :: after) = tokens before ++ .slash :: tokens after :=
  (reads_iff.mp ((reads_iff.mpr rfl).join (reads_iff.mpr rfl) h)).symm

def Token.letter? : Token → Option Char
  | .letter c => some c
  | _ => none

def lettersOf (ts : List Token) : List Char := ts.filterMap Token.letter?

/-- The component in a segment: the letters before its dot, and those after it. -/
def componentOf (segment : List Token) : Component :=
  ⟨String.ofList (lettersOf (segment.takeWhile (· ≠ .dot))),
    String.ofList (lettersOf (segment.dropWhile (· ≠ .dot)))⟩

/-- A segment has a component in it when it has one dot at most and a letter. -/
def Proper (segment : List Token) : Prop :=
  segment.count .dot ≤ 1 ∧ ∃ c, .letter c ∈ segment

/-- Tokens that are components with a slash between them. -/
structure Spells (ts : List Token) (components : List Component) : Prop where
  whole : .dangling ∉ ts
  proper : ∀ segment ∈ ts.splitOn .slash, Proper segment
  components : components = (ts.splitOn .slash).map componentOf

/-- What is wrong with tokens that are no name. -/
inductive Faulty (text : String) (ts : List Token) : Fault → Prop
  | emptyText (nothing : text = "") : Faulty text ts .emptyText
  | danglingEscape (dangles : .dangling ∈ ts) : Faulty text ts (.danglingEscape text)
  | secondKind {segment : List Token} (mem : segment ∈ ts.splitOn .slash)
      (dots : 1 < segment.count .dot) : Faulty text ts (.secondKind text)
  | emptyComponent {segment : List Token} (mem : segment ∈ ts.splitOn .slash)
      (letterless : ∀ c, .letter c ∉ segment) : Faulty text ts (.emptyComponent text)

theorem lettersOf_map (cs : List Char) : lettersOf (cs.map .letter) = cs := by
  induction cs with
  | nil => rfl
  | cons c cs ih => exact congrArg (c :: ·) ih

theorem lettersOf_dot (ts : List Token) : lettersOf (.dot :: ts) = lettersOf ts := rfl

theorem Spells.join {before after : List Component} (h : Spells ts before) (h' : Spells us after) :
    Spells (ts ++ .slash :: us) (before ++ after) := by
  constructor
  · simp [h.whole, h'.whole]
  · intro segment hsegment
    rw [List.splitOn_append_cons_self] at hsegment
    rcases List.mem_append.mp hsegment with hmem | hmem
    · exact h.proper segment hmem
    · exact h'.proper segment hmem
  · rw [List.splitOn_append_cons_self, List.map_append, ← h.components, ← h'.components]

namespace Draft

theorem slash_notMem (d : Draft) : .slash ∉ d.tokens := by
  obtain ⟨id, kind⟩ := d
  cases kind <;> simp [tokens]

theorem dangling_notMem (d : Draft) : .dangling ∉ d.tokens := by
  obtain ⟨id, kind⟩ := d
  cases kind <;> simp [tokens]

theorem splitOn_tokens (d : Draft) : d.tokens.splitOn .slash = [d.tokens] :=
  List.splitOn_eq_singleton d.slash_notMem

/-- A segment is read as the component that is in it. -/
theorem componentOf_tokens (d : Draft) : componentOf d.tokens = d.component := by
  have hpass : ∀ cs : List Char, ∀ t ∈ cs.map Token.letter, decide (t ≠ .dot) = true := by
    simp
  obtain ⟨id, kind⟩ := d
  cases kind with
  | none =>
    have hall : tokens ⟨id, none⟩ = id.map .letter ++ [] := rfl
    rw [componentOf, hall, List.takeWhile_append_of_pos (hpass id),
      List.dropWhile_append_of_pos (hpass id), List.takeWhile_nil, List.append_nil, lettersOf_map]
    rfl
  | some kind =>
    have hall : tokens ⟨id, some kind⟩ = id.map .letter ++ .dot :: kind.map .letter := rfl
    rw [componentOf, hall, List.takeWhile_append_of_pos (hpass id),
      List.dropWhile_append_of_pos (hpass id), List.takeWhile_cons_of_neg (by simp),
      List.dropWhile_cons_of_neg (by simp), List.append_nil, lettersOf_map, lettersOf_dot,
      lettersOf_map]
    rfl

/-- What a component names are letters. -/
theorem letters_iff (d : Draft) : (∃ c, .letter c ∈ d.tokens) ↔ d.component.isNamed = true := by
  obtain ⟨id, kind⟩ := d
  cases kind with
  | none => cases id <;> simp [tokens, component, Component.isNamed]
  | some kind => cases id <;> cases kind <;> simp [tokens, component, Component.isNamed]

theorem count_dot (d : Draft) : d.tokens.count .dot = if d.kind.isSome then 1 else 0 := by
  have hletters : ∀ cs : List Char, (cs.map Token.letter).count .dot = 0 := by
    simp [List.count_eq_zero]
  obtain ⟨id, kind⟩ := d
  cases kind <;> simp [tokens, hletters]

theorem proper_tokens (d : Draft) (h : d.component.isNamed = true) : Proper d.tokens := by
  refine ⟨?_, d.letters_iff.mpr h⟩
  rw [count_dot]
  split <;> omega

end Draft

theorem spells_draft (h : d.component.isNamed = true) : Spells d.tokens [d.component] := by
  constructor
  · exact d.dangling_notMem
  · intro segment hsegment
    rw [d.splitOn_tokens, List.mem_singleton] at hsegment
    exact hsegment ▸ d.proper_tokens h
  · rw [d.splitOn_tokens, List.map_singleton, d.componentOf_tokens]

theorem splitOn_append {before : List Token} (h : .slash ∉ before) (after : List Token) :
    ∃ more segments, (before ++ after).splitOn .slash = (before ++ more) :: segments := by
  induction before with
  | nil =>
    obtain ⟨segment, segments, hsplit⟩ :=
      List.exists_cons_of_ne_nil (List.splitOn_ne_nil Token.slash after)
    exact ⟨segment, segments, hsplit⟩
  | cons t before ih =>
    simp only [List.mem_cons, not_or] at h
    obtain ⟨more, segments, hsplit⟩ := ih h.2
    refine ⟨more, segments, ?_⟩
    rw [List.cons_append, List.splitOn_cons_eq_if_modifyHead, hsplit]
    simp [Ne.symm h.1]

/-- A segment without letters stands where a draft that names nothing ends. -/
theorem faulty_unnamed (h : ¬ d.component.isNamed = true) (hmem : d.tokens ∈ ts.splitOn .slash) :
    Faulty text ts (.emptyComponent text) := by
  apply Faulty.emptyComponent hmem
  intro c hc
  exact h (d.letters_iff.mp ⟨c, hc⟩)

/-- A second dot stands in the segment of the draft that has a kind already. -/
theorem faulty_dotted (h : d.kind.isSome = true) (rest : List Token) :
    Faulty text (d.tokens ++ .dot :: rest) (.secondKind text) := by
  have hslash : Token.slash ∉ d.tokens ++ [.dot] := by simp [d.slash_notMem]
  obtain ⟨more, segments, hsplit⟩ := splitOn_append hslash rest
  rw [List.append_assoc, List.singleton_append] at hsplit
  apply Faulty.secondKind (hsplit ▸ List.mem_cons_self)
  simp [d.count_dot, h]

theorem Faulty.later {before : List Token} {fault : Fault} (h : Faulty text ts fault) :
    Faulty text (before ++ .slash :: ts) fault := by
  have hmem : ∀ segment ∈ ts.splitOn .slash, segment ∈ (before ++ .slash :: ts).splitOn .slash := by
    intro segment hsegment
    rw [List.splitOn_append_cons_self]
    exact List.mem_append_right _ hsegment
  cases h with
  | emptyText hnothing => exact .emptyText hnothing
  | danglingEscape hdangles => exact .danglingEscape (by simp [hdangles])
  | secondKind hsegment hdots => exact .secondKind (hmem _ hsegment) hdots
  | emptyComponent hsegment hnone => exact .emptyComponent (hmem _ hsegment) hnone

/-- What may be read from tokens: labels that they spell, or a fault that is in them. -/
inductive Judges (text : String) (ts : List Token) : Except Fault (List Label) → Prop
  | spelled {labels : List Label} (spells : Spells ts (labels.map Subtype.val)) :
      Judges text ts (.ok labels)
  | faulty {fault : Fault} (faulty : Faulty text ts fault) : Judges text ts (.error fault)

/-- The induction is on the tokens to come, with those that led to the draft before them. -/
theorem readLabels_judges (text : String) (d : Draft) (ts : List Token) :
    Judges text (d.tokens ++ ts) (readLabels text d ts) := by
  induction ts generalizing d with
  | nil =>
    rw [List.append_nil, readLabels]
    by_cases hnamed : d.component.isNamed = true
    · have hlabel : Label.ofComponent? d.component = some ⟨d.component, hnamed⟩ := dif_pos hnamed
      rw [hlabel]
      exact .spelled (spells_draft hnamed)
    · have hnone : Label.ofComponent? d.component = none := dif_neg hnamed
      rw [hnone]
      exact .faulty (faulty_unnamed hnamed (by simp [d.splitOn_tokens]))
  | cons t ts ih =>
    cases t with
    | letter c =>
      have hrest := ih (d.push c)
      rwa [Draft.tokens_push, List.append_assoc] at hrest
    | slash =>
      rw [readLabels]
      by_cases hnamed : d.component.isNamed = true
      · have hlabel : Label.ofComponent? d.component = some ⟨d.component, hnamed⟩ := dif_pos hnamed
        rw [hlabel]
        have hrest := ih {}
        cases hread : readLabels text {} ts with
        | error fault =>
          rw [hread] at hrest
          cases hrest with
          | faulty hfaulty => exact .faulty hfaulty.later
        | ok labels =>
          rw [hread] at hrest
          cases hrest with
          | spelled hspells => exact .spelled ((spells_draft hnamed).join hspells)
      · have hnone : Label.ofComponent? d.component = none := dif_neg hnamed
        rw [hnone]
        apply Judges.faulty
        apply faulty_unnamed hnamed
        simp [List.splitOn_append_cons_self, d.splitOn_tokens]
    | dot =>
      obtain ⟨id, kind⟩ := d
      cases kind with
      | none =>
        have hrest := ih ⟨id, some []⟩
        simpa [Draft.tokens, readLabels] using hrest
      | some kind => exact .faulty (faulty_dotted rfl ts)
    | dangling => exact .faulty (.danglingEscape (by simp))

/-- Tokens with a fault in them spell nothing. -/
theorem Faulty.not_spells {fault : Fault} {components : List Component}
    (h : Faulty text (tokens text.toList) fault) : ¬ Spells (tokens text.toList) components := by
  intro hspells
  cases h with
  | emptyText hnothing =>
    obtain ⟨_, c, hc⟩ := hspells.proper [] (by simp [hnothing, tokens])
    cases hc
  | danglingEscape hdangles => exact hspells.whole hdangles
  | secondKind hsegment hdots => exact absurd (hspells.proper _ hsegment).1 (by omega)
  | emptyComponent hsegment hnone =>
    obtain ⟨_, c, hc⟩ := hspells.proper _ hsegment
    exact hnone c hc

theorem not_spells_nil : ¬ Spells ts [] := by
  intro h
  have hnone := h.components
  simp at hnone

/-- Reading a text gives the name that it spells or a fault that it has. -/
theorem ofText_cases (text : String) :
    (∃ n, ofText text = .ok n ∧ Spells (tokens text.toList) n.components) ∨
      ∃ fault, ofText text = .error fault ∧ Faulty text (tokens text.toList) fault := by
  have hjudges := readLabels_judges text {} (tokens text.toList)
  unfold ofText
  split
  · rename_i hempty
    exact .inr ⟨_, rfl, .emptyText (String.isEmpty_iff.mp hempty)⟩
  · cases hread : readLabels text {} (tokens text.toList) with
    | error fault =>
      rw [hread] at hjudges
      cases hjudges with
      | faulty hfaulty => exact .inr ⟨fault, rfl, hfaulty⟩
    | ok labels =>
      rw [hread] at hjudges
      cases hjudges with
      | spelled hspells =>
        cases labels with
        | nil => exact absurd hspells not_spells_nil
        | cons first rest => exact .inl ⟨⟨first, rest⟩, rfl, hspells⟩

theorem components_injective {p q : Name} (h : p.components = q.components) : p = q := by
  have hlabels : p.labels = q.labels :=
    (List.map_inj_right fun _ _ => Subtype.ext).mp h
  obtain ⟨first, rest⟩ := p
  obtain ⟨first', rest'⟩ := q
  cases hlabels
  rfl

/-- The texts of a name are those that spell it. -/
theorem ofText_ok_iff {n : Name} :
    ofText text = .ok n ↔ Spells (tokens text.toList) n.components := by
  rcases ofText_cases text with ⟨m, hm, hspells⟩ | ⟨fault, hfault, hfaulty⟩
  · rw [hm]
    constructor
    · rintro ⟨⟩
      exact hspells
    · intro h
      exact congrArg _ (components_injective (hspells.components.trans h.components.symm))
  · rw [hfault]
    constructor
    · intro h
      cases h
    · intro h
      exact absurd h hfaulty.not_spells

theorem components_append (p q : Name) : (p ++ q).components = p.components ++ q.components := by
  have hlabels : (p ++ q).labels = p.labels ++ q.labels := rfl
  rw [components, hlabels, List.map_append]
  rfl

theorem writtenRest_append (before after : List Label) :
    writtenRest (before ++ after) = writtenRest before ++ writtenRest after := by
  induction before with
  | nil => rfl
  | cons label before ih => simp [writtenRest, ih]

theorem text_append (p q : Name) : (p ++ q).text = p.text ++ "/" ++ q.text := by
  have hwritten : (p ++ q).written = p.written ++ '/' :: q.written := by
    change p.first.val.written ++ writtenRest (p.rest ++ q.labels) = _
    simp [writtenRest_append, labels, writtenRest, written]
  apply String.toList_inj.mp
  simp [text, hwritten]

/-- Every text reads in one way as segments of letters, and it is a name exactly if these are
proper. So names that follow each other are written with a slash between them. -/
theorem ofText_exact :
    (∀ text, ∃ ts, (∀ us, Reads text.toList us ↔ us = ts) ∧
      ((∃ n, ofText text = .ok n) ↔
        .dangling ∉ ts ∧ ∀ segment ∈ ts.splitOn .slash, Proper segment) ∧
      (∀ n, ofText text = .ok n → n.components = (ts.splitOn .slash).map componentOf) ∧
      ∀ fault, ofText text = .error fault →
        Faulty text ts fault ∧ Failure.ofFault fault = .invalidName fault.message) ∧
    (∀ s t p q, ofText s = .ok p → ofText t = .ok q → ofText (s ++ "/" ++ t) = .ok (p ++ q)) ∧
    ∀ p q : Name, (p ++ q).components = p.components ++ q.components ∧
      (p ++ q).text = p.text ++ "/" ++ q.text := by
  refine ⟨?_, ?_, ?_⟩
  · intro text
    refine ⟨tokens text.toList, fun us => reads_iff, ⟨?_, ?_⟩, ?_, ?_⟩
    · rintro ⟨n, hn⟩
      have hspells := ofText_ok_iff.mp hn
      exact ⟨hspells.whole, hspells.proper⟩
    · rintro ⟨hwhole, hproper⟩
      rcases ofText_cases text with ⟨n, hn, _⟩ | ⟨fault, _, hfaulty⟩
      · exact ⟨n, hn⟩
      · exact absurd ⟨hwhole, hproper, rfl⟩ hfaulty.not_spells
    · intro n hn
      exact (ofText_ok_iff.mp hn).components
    · intro fault hfault
      refine ⟨?_, rfl⟩
      rcases ofText_cases text with ⟨n, hn, _⟩ | ⟨other, hother, hfaulty⟩
      · cases hn.symm.trans hfault
      · cases hother.symm.trans hfault
        exact hfaulty
  · intro s t p q hp hq
    have hjoin := (ofText_ok_iff.mp hp).join (ofText_ok_iff.mp hq)
    apply ofText_ok_iff.mpr
    rw [components_append]
    have htext : (s ++ "/" ++ t).toList = s.toList ++ '/' :: t.toList := by simp
    rwa [htext, tokens_join (ofText_ok_iff.mp hp).whole]
  · intro p q
    exact ⟨components_append p q, text_append p q⟩

/-- A kind with an escaped slash in it, followed by a component without an identifier; and a text
with two faults, of which the first is reported. -/
theorem ofText_exact_escaped :
    let p : Name := ⟨⟨⟨"a", "b/c"⟩, by decide⟩, []⟩
    let q : Name := ⟨⟨⟨"", "svc"⟩, by decide⟩, []⟩
    (ofText "a.b\\/c" = .ok p ∧ ofText ".svc" = .ok q ∧ ofText "a.b\\/c/.svc" = .ok (p ++ q)) ∧
    ∃ ts, Reads "a.b.c/".toList ts ∧ ofText "a.b.c/" = .error (.secondKind "a.b.c/") ∧
      Faulty "a.b.c/" ts (.secondKind "a.b.c/") := by
  intro p q
  obtain ⟨hreads, hjoins, _⟩ := ofText_exact
  have hp : ofText "a.b\\/c" = .ok p := by rfl
  have hq : ofText ".svc" = .ok q := by rfl
  have hfault : ofText "a.b.c/" = .error (.secondKind "a.b.c/") := by rfl
  obtain ⟨ts, hts, _, _, hfaulty⟩ := hreads "a.b.c/"
  exact ⟨⟨hp, hq, hjoins _ _ p q hp hq⟩, ts, (hts ts).mpr rfl, hfault, (hfaulty _ hfault).1⟩

end Naming.Name
