import Mathlib.Data.List.Forall2
import Naming.Listing.Frame

namespace Naming.Frame

variable {texts : List (List Char)} {row head : List String} {rows : List (List String)}

/-- The lines of a text. -/
def printed (text : String) : List (List Char) := text.toList.splitOn '\n'

theorem lines_eq_splitOn (cs : List Char) : lines cs = cs.splitOn '\n' := by
  induction cs with
  | nil => rfl
  | cons c rest ih =>
    rw [List.splitOn_cons_eq_if_modifyHead, ← ih]
    rw [lines]
    by_cases hc : c = '\n'
    · rw [if_pos hc, if_pos (beq_iff_eq.mpr hc)]
    · rw [if_neg hc, if_neg fun h => hc (beq_iff_eq.mp h)]
      have hsome : lines rest ≠ [] := ih ▸ List.splitOn_ne_nil _ _
      obtain ⟨line, more, hlines⟩ := List.exists_cons_of_ne_nil hsome
      rw [hlines]
      rfl

theorem cell_eq_printed (text : String) : cell text = printed text := lines_eq_splitOn text.toList

theorem newline_notMem_lines {cs line : List Char} (h : line ∈ lines cs) : '\n' ∉ line := by
  induction cs generalizing line with
  | nil =>
    cases List.mem_singleton.mp h
    exact List.not_mem_nil
  | cons c rest ih =>
    unfold lines at h
    split at h
    · rcases List.mem_cons.mp h with rfl | hrest
      · exact List.not_mem_nil
      · exact ih hrest
    · rename_i hc
      split at h
      · cases List.mem_singleton.mp h
        exact fun hmem => hc (List.mem_singleton.mp hmem).symm
      · rename_i first more hlines
        rw [hlines] at ih
        rcases List.mem_cons.mp h with rfl | hmore
        · rintro (_ | ⟨_, hmem⟩)
          · exact hc rfl
          · exact ih List.mem_cons_self hmem
        · exact ih (List.mem_cons_of_mem _ hmore)

/-- The line of a text at a position, if it has so many. -/
def lineAt (i : Nat) (text : String) : List Char := (printed text).getD i []

theorem newline_notMem_lineAt (i : Nat) (text : String) : '\n' ∉ lineAt i text := by
  unfold lineAt
  rw [← cell_eq_printed, List.getD_eq_getElem?_getD]
  cases hline : (cell text)[i]? with
  | none => exact List.not_mem_nil
  | some line => exact newline_notMem_lines (List.mem_of_getElem? hline)

/-- Texts side by side, each with a blank before it and one or more after it. -/
inductive Spaced : List (List Char) → List Char → Prop
  | done : Spaced [] []
  | text {texts : List (List Char)} {rest : List Char} (text : List Char) (blanks : Nat)
      (others : Spaced texts rest) :
      Spaced (text :: texts) (' ' :: text ++ List.replicate (blanks + 1) ' ' ++ rest)

/-- Lines that show a row between borders on either side. The first of them has the first line of
each text, the next has the next lines, and so on until all texts are there as a whole. -/
structure Shows (row : List String) (block : List (List Char)) : Prop where
  whole : ∀ text ∈ row, (printed text).length ≤ block.length
  least : ∃ text ∈ row, (printed text).length = block.length
  line : ∀ i line, block[i]? = some line →
    ∃ inner, line = '│' :: inner ++ ['│'] ∧ Spaced (row.map (lineAt i)) inner

/-- No sign takes up more columns than it has bytes. So a text is not too wide for its column when
a number of 16 bits counts its bytes and the blanks on either side. -/
def Fits (text : String) : Prop := text.utf8ByteSize + 2 < Nat.pow 2 16

instance (text : String) : Decidable (Fits text) := Nat.decLt _ _

/-- Lines between borders that stand for a row. They show it, unless a text is too wide. -/
structure Framed (row : List String) (block : List (List Char)) : Prop where
  some : block ≠ []
  bordered : ∀ line ∈ block, ∃ inner, line = '│' :: inner ++ ['│']
  shows : (∀ text ∈ row, Fits text) → Shows row block

/-- A line below or above rows. -/
def ruled (left middle right : Char) (width : Nat) : List Char :=
  left :: List.replicate width middle ++ [right]

/-- Lines that are a table: below a head the rows in order, each with lines of its own that show
it in the way told. -/
inductive Table (stands : List String → List (List Char) → Prop) (head : List String)
    (rows : List (List String)) : List (List Char) → Prop
  | drawn (width : Nat) {first : List (List Char)} {blocks : List (List (List Char))}
      (headed : stands head first) (shown : List.Forall₂ stands rows blocks) :
      Table stands head rows (ruled '┌' '─' '┐' width :: first ++
        ruled '╞' '═' '╡' width :: blocks.flatten ++ [ruled '└' '─' '┘' width])

/-- What draws tables has all rows that it is given in the table, in order, below the head. -/
def ShowsRows [Drawing] : Prop :=
  ∀ head rows, head ≠ [] → (∀ row ∈ rows, row.length = head.length) →
    Table Framed head rows (printed (Drawing.draw head rows))

variable {stands stands' : List String → List (List Char) → Prop}

theorem Shows.framed {block : List (List Char)} (h : Shows row block) : Framed row block := by
  refine ⟨?_, ?_, fun _ => h⟩
  · rintro rfl
    obtain ⟨text, _, hlength⟩ := h.least
    exact List.splitOn_ne_nil _ _ (List.length_eq_zero_iff.mp hlength)
  · intro line hline
    obtain ⟨i, hi⟩ := List.mem_iff_getElem?.mp hline
    obtain ⟨inner, hinner, _⟩ := h.line i line hi
    exact ⟨inner, hinner⟩

theorem Table.imp {table : List (List Char)} (himp : ∀ row block, stands row block →
    stands' row block) (h : Table stands head rows table) : Table stands' head rows table := by
  cases h with
  | drawn width headed shown => exact .drawn width (himp _ _ headed) (shown.imp himp)

/-- A table shows all rows if no text in it is too wide. -/
theorem Table.shows {table : List (List Char)} (h : Table Framed head rows table)
    (hhead : ∀ text ∈ head, Fits text) (hrows : ∀ row ∈ rows, ∀ text ∈ row, Fits text) :
    Table Shows head rows table := by
  cases h with
  | drawn width headed shown =>
    refine .drawn width (headed.shows hhead) ?_
    apply List.forall₂_iff_get.mpr
    refine ⟨shown.length_eq, fun i hi hj => ?_⟩
    exact (shown.get hi hj).shows (hrows _ (List.get_mem rows ⟨i, hi⟩))

theorem Spaced.newline_notMem {inner : List Char} (h : Spaced texts inner)
    (ht : ∀ text ∈ texts, '\n' ∉ text) : '\n' ∉ inner := by
  induction h with
  | done => exact List.not_mem_nil
  | text text blanks others ih =>
    have hrest := ih fun other hmem => ht other (List.mem_cons_of_mem _ hmem)
    have htext := ht text List.mem_cons_self
    simp [htext, hrest]

theorem Shows.newline_notMem {block : List (List Char)} {line : List Char} (h : Shows row block)
    (hline : line ∈ block) : '\n' ∉ line := by
  obtain ⟨i, hi⟩ := List.mem_iff_getElem?.mp hline
  obtain ⟨inner, rfl, hspaced⟩ := h.line i line hi
  have hinner : '\n' ∉ inner := hspaced.newline_notMem fun text hmem => by
    obtain ⟨whole, _, rfl⟩ := List.mem_map.mp hmem
    exact newline_notMem_lineAt i whole
  simp [hinner]

theorem newline_notMem_ruled {left middle right : Char} {width : Nat}
    (h : '\n' ≠ left ∧ '\n' ≠ middle ∧ '\n' ≠ right) : '\n' ∉ ruled left middle right width := by
  unfold ruled
  simp [h, List.mem_replicate]

theorem Table.newline_notMem {table : List (List Char)} {line : List Char}
    (h : Table Shows head rows table) (hline : line ∈ table) : '\n' ∉ line := by
  cases h with
  | drawn width headed shown =>
    rename_i first blocks
    have hblocks : line ∈ blocks.flatten → '\n' ∉ line := by
      intro hmem
      obtain ⟨block, hblock, hin⟩ := List.mem_flatten.mp hmem
      obtain ⟨i, hi⟩ := List.mem_iff_getElem?.mp hblock
      obtain ⟨hlt, rfl⟩ := List.getElem?_eq_some_iff.mp hi
      have hrow : i < rows.length := shown.length_eq ▸ hlt
      exact (shown.get hrow hlt).newline_notMem hin
    simp only [List.mem_append, List.mem_cons, List.not_mem_nil, or_false, or_assoc] at hline
    rcases hline with rfl | hfirst | rfl | hmem | rfl
    · exact newline_notMem_ruled (by decide)
    · exact headed.newline_notMem hfirst
    · exact newline_notMem_ruled (by decide)
    · exact hblocks hmem
    · exact newline_notMem_ruled (by decide)

/-- There is a rule above a table and one below it. -/
theorem Table.ends {table : List (List Char)} (h : Table stands head rows table) :
    ∃ width inner, table = ruled '┌' '─' '┐' width :: inner ++ [ruled '└' '─' '┘' width] := by
  cases h with
  | drawn width headed shown => exact ⟨width, _, rfl⟩

theorem rule_ruled (widths : List Nat) : ∃ width, ∀ left middle right,
    rule left middle right widths = ruled left middle right width :=
  ⟨_, fun _ _ _ => rfl⟩

/-- A text between blanks, as wide as its column. -/
theorem part_eq (text : String) (width i : Nat) : ∃ blanks,
    ' ' :: pad width ((cell text).getD i []) ++ [' '] =
      ' ' :: lineAt i text ++ List.replicate (blanks + 1) ' ' := by
  refine ⟨width - Text.Columns.ofLine (lineAt i text), ?_⟩
  have htext : (cell text).getD i [] = lineAt i text := by
    rw [cell_eq_printed]
    rfl
  rw [htext, pad, List.replicate_succ', List.cons_append, List.append_assoc]
  rfl

/-- The texts of one line, each in a column of its own. -/
theorem rowLine_spaced {widths : List Nat} (h : row.length ≤ widths.length) (i : Nat) :
    ∃ inner, rowLine widths (row.map cell) i = '│' :: inner ++ ['│'] ∧
      Spaced (row.map (lineAt i)) inner := by
  refine ⟨_, rfl, ?_⟩
  induction row generalizing widths with
  | nil => exact .done
  | cons text rest ih =>
    cases widths with
    | nil => cases h
    | cons width others =>
      have hrest := ih (Nat.le_of_succ_le_succ h)
      obtain ⟨blanks, hpart⟩ := part_eq text width i
      cases rest with
      | nil =>
        have hline := Spaced.text (lineAt i text) blanks .done
        simp only [List.append_nil] at hline
        simpa only [List.map_cons, List.map_nil, List.zip_cons_cons, List.zip_nil_left,
          List.intercalate_singleton, hpart] using hline
      | cons next more =>
        cases others with
        | nil => cases Nat.le_of_succ_le_succ h
        | cons second others =>
          have hline := Spaced.text (lineAt i text) (blanks + 1) hrest
          rw [List.replicate_succ', ← List.append_assoc, ← hpart] at hline
          simpa only [List.map_cons, List.zip_cons_cons, List.intercalate_cons_cons] using hline

theorem rowLines_shows {widths : List Nat} (hrow : row ≠ [])
    (h : row.length ≤ widths.length) : Shows row (rowLines widths (row.map cell)) := by
  have hlengths : row.map (fun text => (printed text).length) ≠ [] :=
    fun he => hrow (List.map_eq_nil_iff.mp he)
  have hlength : (rowLines widths (row.map cell)).length =
      (row.map fun text => (printed text).length).max hlengths := by
    simp only [rowLines, List.length_map, List.length_range, List.map_map, Function.comp_def,
      cell_eq_printed, List.foldl_max_eq_max hlengths, Nat.zero_max]
  refine ⟨fun text htext => ?_, ?_, fun i line hline => ?_⟩
  · have hmem : (printed text).length ∈ row.map fun text => (printed text).length :=
      List.mem_map.mpr ⟨text, htext, rfl⟩
    rw [hlength]
    exact List.le_max_of_mem hmem
  · obtain ⟨text, htext, he⟩ := List.mem_map.mp (List.max_mem hlengths)
    exact ⟨text, htext, he.trans hlength.symm⟩
  · rw [rowLines, List.getElem?_map] at hline
    obtain ⟨j, hj, rfl⟩ := Option.map_eq_some_iff.mp hline
    obtain ⟨hlt, rfl⟩ := List.getElem?_eq_some_iff.mp hj
    rw [List.getElem_range]
    exact rowLine_spaced h i

/-- What is drawn is a table. -/
theorem draw_table (hhead : head ≠ []) (hrows : ∀ row ∈ rows, row.length = head.length) :
    ∃ table, Table Shows head rows table ∧
      draw head rows = String.ofList (List.intercalate ['\n'] table) := by
  obtain ⟨columns, hcolumns⟩ : ∃ columns, columns = widths (head.map cell).length
      (head.map cell :: rows.map (·.map cell)) := ⟨_, rfl⟩
  have hlength : columns.length = head.length := by simp [hcolumns, widths]
  have hshown : List.Forall₂ Shows rows (rows.map fun row => rowLines columns (row.map cell)) := by
    refine List.forall₂_map_right_iff.mpr (List.forall₂_same.mpr fun row hrow => ?_)
    have hsame := hrows row hrow
    refine rowLines_shows ?_ (Nat.le_of_eq (hsame.trans hlength.symm))
    rintro rfl
    exact hhead (List.length_eq_zero_iff.mp hsame.symm)
  obtain ⟨width, hrule⟩ := rule_ruled columns
  refine ⟨_, .drawn width (rowLines_shows hhead (Nat.le_of_eq hlength.symm)) hshown, ?_⟩
  unfold draw
  simp only [← hcolumns, hrule, List.flatMap_def, List.map_map, Function.comp_def]

theorem printed_draw (hhead : head ≠ []) (hrows : ∀ row ∈ rows, row.length = head.length) :
    Table Shows head rows (printed (draw head rows)) := by
  obtain ⟨table, htable, hdraw⟩ := draw_table hhead hrows
  have hsome : table ≠ [] := by
    rintro rfl
    cases htable
  rw [hdraw, printed, String.toList_ofList, List.splitOn_intercalate _ _ hsome]
  · exact htable
  · exact fun line hline => htable.newline_notMem hline

theorem draw_showsRows : ShowsRows :=
  fun _ _ hhead hrows => (printed_draw hhead hrows).imp fun _ _ => Shows.framed

example : draw ["A", "B"] [["c\nd", "e"]] =
    "┌───────┐\n│ A   B │\n╞═══════╡\n│ c   e │\n│ d     │\n└───────┘" := by
  decide +kernel

end Naming.Frame
