import Naming.Proofs.FailedCommands
import Naming.Proofs.PagesAccounted
import Naming.Proofs.TableRows

namespace Naming

open Naming.Frame (printed)

variable {s : Server} {service : Service} {bindings : BindingSet} {max : Nat}

/-- What is printed after an empty line. -/
theorem Frame.printed_apart (first rest : String) :
    printed (first ++ "\n\n" ++ rest) = printed first ++ [] :: printed rest := by
  unfold printed
  rw [String.toList_append, String.toList_append, List.append_assoc]
  change (first.toList ++ '\n' :: '\n' :: rest.toList).splitOn '\n' = _
  rw [List.splitOn_append_cons_self]
  exact congrArg _ (List.splitOn_append_cons_self [] _)

namespace Listing

variable {key : ContextKey} {m n count : Nat} {l : Listing}

def title (key : ContextKey) : String := s!"Context {key.text}"

/-- What is shown of a context that seems to have no bindings. -/
def nothing (key : ContextKey) : String := s!"Context {key.text}\n\nNo bindings."

/-- The line that tells how many bindings are not shown. -/
def left (count : Nat) : List Char := s!"{count} more (raise --max to see them)".toList

/-- A text ends with the line that so many bindings are not shown. -/
def Reports (text : String) (count : Nat) : Prop := (printed text).getLast? = some (left count)

theorem left_eq (count : Nat) :
    left count = Nat.toDigits 10 count ++ " more (raise --max to see them)".toList := by
  change (toString count ++ " more (raise --max to see them)").toList = _
  rw [String.toList_append, Nat.toString_eq_repr, Nat.toList_repr]

theorem left_injective (h : left m = left n) : m = n := by
  rw [left_eq, left_eq] at h
  exact toDigits_injective (List.append_cancel_right h)

theorem getLast?_left (count : Nat) : (left count).getLast? = some ')' := by
  rw [left_eq, List.getLast?_append]
  rfl

theorem newline_notMem_left (count : Nat) : '\n' ∉ left count := by
  rw [left_eq]
  intro hmem
  rcases List.mem_append.mp hmem with hdigit | htext
  · have hnewline := Nat.isDigit_of_mem_toDigits (by decide) (by decide) hdigit
    cases hnewline
  · exact absurd htext (by decide)

theorem printed_left (count : Nat) :
    printed s!"{count} more (raise --max to see them)" = [left count] :=
  List.splitOn_eq_singleton (newline_notMem_left count)

theorem nothing_eq (key : ContextKey) : nothing key = title key ++ "\n\n" ++ "No bindings." := by
  change "Context " ++ key.text ++ "\n\nNo bindings." = "Context " ++ key.text ++ "\n\n" ++ _
  rw [String.append_assoc, String.append_assoc, String.append_assoc]
  rfl

theorem printed_nothing (key : ContextKey) :
    printed (nothing key) = printed (title key) ++ [[], "No bindings.".toList] := by
  rw [nothing_eq, Frame.printed_apart]
  rfl

theorem text_nothing [Drawing] (h : l.bindings = []) : l.text = nothing l.context := by
  unfold text
  rw [h, nothing_eq]
  rfl

/-- A page with bindings is shown as a table, with a line below it if it is not all. -/
theorem printed_text [Drawing] (hdraw : Frame.ShowsRows) (h : l.bindings ≠ []) : ∃ table,
    Frame.Table Frame.Framed ["Id", "Kind", "Type", "Target"] (l.bindings.map row) table ∧
      printed l.text = printed (title l.context) ++ [] :: table ++
        if 0 < l.remaining then [[], left l.remaining] else [] := by
  have hrows : ∀ r ∈ l.bindings.map row, r.length = 4 := by
    intro r hr
    obtain ⟨b, _, rfl⟩ := List.mem_map.mp hr
    rfl
  refine ⟨_, hdraw _ _ (List.cons_ne_nil _ _) hrows, ?_⟩
  unfold text
  rw [if_neg fun he => h (List.isEmpty_iff.mp he)]
  dsimp only
  generalize Drawing.draw ["Id", "Kind", "Type", "Target"] (l.bindings.map row) = table
  by_cases hleft : 0 < l.remaining
  · rw [if_pos hleft, if_pos hleft]
    have htext : s!"Context {l.context.text}\n\n" ++ table ++
        s!"\n\n{l.remaining} more (raise --max to see them)" =
          title l.context ++ "\n\n" ++ (table ++ "\n\n" ++
            s!"{l.remaining} more (raise --max to see them)") := by
      change "Context " ++ l.context.text ++ "\n\n" ++ table ++
        ("\n\n" ++ toString l.remaining ++ " more (raise --max to see them)") =
          "Context " ++ l.context.text ++ "\n\n" ++ (table ++ "\n\n" ++
            (toString l.remaining ++ " more (raise --max to see them)"))
      simp only [String.append_assoc]
    rw [htext, Frame.printed_apart, Frame.printed_apart, printed_left, List.append_assoc]
    rfl
  · rw [if_neg hleft, if_neg hleft, String.append_empty, List.append_nil]
    exact Frame.printed_apart (title l.context) table

theorem reports_text [Drawing] (hdraw : Frame.ShowsRows) :
    Reports l.text count ↔ l.bindings ≠ [] ∧ 0 < l.remaining ∧ count = l.remaining := by
  unfold Reports
  by_cases hnone : l.bindings = []
  · rw [text_nothing hnone, printed_nothing, List.getLast?_append]
    refine ⟨fun h => ?_, fun h => absurd hnone h.1⟩
    have hend := congrArg List.getLast? (Option.some.inj h)
    rw [getLast?_left] at hend
    exact absurd hend (by decide)
  · obtain ⟨table, htable, hprinted⟩ := printed_text hdraw hnone
    rw [hprinted]
    by_cases hleft : 0 < l.remaining
    · rw [if_pos hleft, List.getLast?_append]
      refine ⟨fun h => ⟨hnone, hleft, (left_injective (Option.some.inj h)).symm⟩, fun h => ?_⟩
      rw [h.2.2]
      rfl
    · obtain ⟨width, inner, rfl⟩ := htable.ends
      rw [if_neg hleft, List.append_nil, ← List.cons_append, ← List.append_assoc,
        List.getLast?_concat]
      refine ⟨fun h => ?_, fun h => absurd h.2.1 hleft⟩
      have hend := congrArg List.getLast? (Option.some.inj h)
      rw [getLast?_left, Frame.ruled, List.getLast?_concat] at hend
      exact absurd hend (by decide)

theorem text_eq_nothing_iff [Drawing] (hdraw : Frame.ShowsRows) :
    l.text = nothing l.context ↔ l.bindings = [] := by
  refine ⟨fun h => ?_, text_nothing⟩
  by_contra hsome
  obtain ⟨table, htable, hprinted⟩ := printed_text hdraw hsome
  obtain ⟨width, inner, rfl⟩ := htable.ends
  rw [h, printed_nothing, List.append_assoc] at hprinted
  have htop := (List.cons.inj (List.cons.inj (List.append_cancel_left hprinted)).2).1
  have hfirst : some 'N' = some '┌' := congrArg List.head? htop
  exact absurd hfirst (by decide)

/-- What a text owes to the bindings of a context when so many of them are to be shown at most: each
of the first has a row, in order, and if these are not all, the number of the others is below. -/
structure Accounts (text : String) (key : ContextKey) (bindings : BindingSet) (max : Nat) :
    Prop where
  rows : ∃ table, Frame.Table Frame.Framed ["Id", "Kind", "Type", "Target"]
      ((bindings.entries.take max).map row) table ∧
    printed text = printed (title key) ++ [] :: table ++
      if max < bindings.size then [[], left (bindings.size - max)] else []
  sum : ∀ count, Reports text count → (bindings.entries.take max).length + count = bindings.size
  all : (∀ count, ¬ Reports text count) → bindings.entries.take max = bindings.entries

/-- The rows are shown if no text in them is too wide. -/
theorem Accounts.shown {text : String} (h : Accounts text key bindings max)
    (hfits : ∀ b ∈ bindings.entries, ∀ shown ∈ row b, Frame.Fits shown) :
    ∃ table, Frame.Table Frame.Shows ["Id", "Kind", "Type", "Target"]
        ((bindings.entries.take max).map row) table ∧
      printed text = printed (title key) ++ [] :: table ++
        if max < bindings.size then [[], left (bindings.size - max)] else [] := by
  obtain ⟨table, htable, hprinted⟩ := h.rows
  refine ⟨table, htable.shows (by decide) ?_, hprinted⟩
  intro r hr
  obtain ⟨b, hb, rfl⟩ := List.mem_map.mp hr
  exact hfits b (List.mem_of_mem_take hb)

/-- The first page of a context. -/
def ofPage (key : ContextKey) (bindings : BindingSet) (max : Nat) : Listing :=
  ⟨key, (bindings.page max).1, bindings.size - max⟩

theorem page_eq_nil_iff : (bindings.page max).1 = [] ↔ bindings.size = 0 ∨ max = 0 := by
  simp only [BindingSet.page, BindingSet.size, List.take_eq_nil_iff, List.length_eq_zero_iff]
  exact or_comm

theorem ofPage_eq_nothing_iff [Drawing] (hdraw : Frame.ShowsRows) :
    (ofPage key bindings max).text = nothing key ↔ bindings.size = 0 ∨ max = 0 :=
  (text_eq_nothing_iff hdraw).trans page_eq_nil_iff

theorem reports_ofPage [Drawing] (hdraw : Frame.ShowsRows) :
    Reports (ofPage key bindings max).text count ↔
    0 < max ∧ max < bindings.size ∧ count = bindings.size - max := by
  refine (reports_text hdraw).trans ?_
  change ¬ (bindings.page max).1 = [] ∧ 0 < bindings.size - max ∧ count = bindings.size - max ↔ _
  rw [page_eq_nil_iff]
  omega

theorem ofPage_accounts [Drawing] (hdraw : Frame.ShowsRows) (hsize : 0 < bindings.size)
    (hmax : 0 < max) :
    Accounts (ofPage key bindings max).text key bindings max := by
  have hsome : (ofPage key bindings max).bindings ≠ [] := fun h =>
    (page_eq_nil_iff.mp h).elim hsize.ne' hmax.ne'
  refine ⟨?_, fun count h => ?_, fun h => ?_⟩
  · obtain ⟨table, htable, hprinted⟩ := printed_text hdraw hsome
    refine ⟨table, htable, hprinted.trans ?_⟩
    simp only [ofPage, Nat.sub_pos_iff_lt]
  · obtain ⟨_, hlt, rfl⟩ := (reports_ofPage hdraw).mp h
    unfold BindingSet.size at hlt ⊢
    rw [List.length_take, Nat.min_eq_left hlt.le]
    exact Nat.add_sub_cancel' hlt.le
  · refine List.take_of_length_le (Nat.not_lt.mp fun hlt => ?_)
    exact h _ ((reports_ofPage hdraw).mpr ⟨hmax, hlt, rfl⟩)

end Listing

theorem BindingSet.more_size :
    ((bindings.more max).map (·.size)).getD 0 = bindings.size - max := by
  unfold more page size
  rw [← List.length_drop]
  cases bindings.entries.drop max <;> rfl

theorem Disk.load_seen {d : Disk} {key : ContextKey} {seen : BindingSet → Bool}
    (h : (d.load key).toOption.any (·.any seen) = true) :
    ∃ bindings, d.load key = .ok (some bindings) ∧ seen bindings = true := by
  cases hload : d.load key with
  | error failure =>
    rw [hload] at h
    cases h
  | ok stored =>
    rw [hload] at h
    obtain ⟨bindings, rfl, hseen⟩ := (Option.any_eq_true _ stored).mp h
    exact ⟨bindings, rfl, hseen⟩

/-- The context that is listed: the root, or the one that a name leads to. -/
def Disk.listed (d : Disk) (root : Context) : Option String → Except Failure Context
  | none => .ok root
  | some text => ((Name.ofText text).mapError .ofFault).bind fun name =>
      (d.resolve root.key name).bind (root.contextOf name)

namespace Command

theorem views_page [Drawing] (c : Context) (max : Nat) : (page c max "text").Views [.load] fun d =>
    d.look c.key fun bindings => .ok (Listing.ofPage c.key bindings max).text := by
  have hpage : page c max "text" = c.list max >>= fun p =>
      pure (Listing.mk c.key p.1 ((p.2.map (·.size)).getD 0)).text := rfl
  rw [hpage]
  refine Request.Performs.congr ((c.views_list max).map _) fun d => ?_
  dsimp only [Disk.look]
  cases d.found c.key .existing with
  | error failure => rfl
  | ok p =>
    simp only [Except.bind, Except.map, BindingSet.more_size]
    rfl

theorem views_list_text [Drawing] (service : Service) (place : Option String) (max : Nat) :
    ((list place max "text").run service).Views [.load] fun d =>
      (d.listed service.rootContext place).bind fun c =>
        d.look c.key fun bindings => .ok (Listing.ofPage c.key bindings max).text := by
  cases place with
  | none => exact views_page service.rootContext max
  | some text =>
    refine Request.Performs.congr ((views_readName [.load] text).andThen fun name =>
      (service.rootContext.views_resolveContext name).andThen fun c => views_page c max) fun d => ?_
    simp only [Disk.listed]
    cases (Name.ofText text).mapError Failure.ofFault <;> rfl

end Command

namespace Service

variable {place : Option String} {c : Context}

/-- The listing that is printed accounts for every binding, whatever draws its table: what has no
row is counted below. It is left out only when no rows are asked for. -/
theorem list_shown [Drawing] (hdraw : Frame.ShowsRows) (h : Worked {} (some service) s)
    (hplace : s.store.disk.listed service.rootContext place = .ok c)
    (hload : s.store.disk.load c.key = .ok (some bindings)) (max : Nat) :
    ∃ result t, (service.execute (.list place max "text")).serve s = some (result, t) ∧
      (result.isOk = false ∧ s.store.Refused t.store .load ∨ ∃ text, result = .ok text ∧
        (text = Listing.nothing c.key ↔ bindings.size = 0 ∨ max = 0) ∧
        (∀ count, Listing.Reports text count ↔
          0 < max ∧ max < bindings.size ∧ count = bindings.size - max) ∧
        (0 < bindings.size → 0 < max → Listing.Accounts text c.key bindings max)) := by
  have hrest := h.rest
  have hfair := (h.sound Disk.sound_empty).fair
  have hviews := Command.views_list_text service place max
  obtain ⟨result, t, hserve, _⟩ := hviews.orderly.serves hrest.idle fun _ => hrest.opened
  obtain ⟨event, hexecute⟩ := service.execute_run hserve
  refine ⟨result, t.note event, hexecute, ?_⟩
  rcases hviews.shows hrest.ready hfair hserve with hresult | hrefused
  · have hshown : result = .ok (Listing.ofPage c.key bindings max).text := by
      rw [hresult, hplace]
      exact Disk.look_stored hload fun b => .ok (Listing.ofPage c.key b max).text
    exact .inr ⟨_, hshown, Listing.ofPage_eq_nothing_iff hdraw,
      fun _ => Listing.reports_ofPage hdraw, Listing.ofPage_accounts hdraw⟩
  · exact .inl hrefused

/-- Two bindings in a context below the root. -/
def shelved : List Task :=
  [.call ⟨"NC0"⟩ (.bindNewContext (.single ⟨.ofId "d", Eq.refl true⟩)),
    .call ⟨"NC1"⟩ (.bind (.single ⟨.ofId "a", Eq.refl true⟩) "first"),
    .call ⟨"NC1"⟩ (.bind (.single ⟨.ofId "b", Eq.refl true⟩) "second")]

theorem list_shown_shelved : ∃ service s history bindings t text,
    firstRun shelved = some (service, s, history) ∧
      s.store.disk.load ⟨"NC1"⟩ = .ok (some bindings) ∧ bindings.size = 2 ∧
      (service.execute (.list (some "d") 1 "text")).serve s = some (.ok text, t) ∧
      Listing.Reports text 1 ∧ Listing.Accounts text ⟨"NC1"⟩ bindings 1 ∧
      ∃ table, Frame.Table Frame.Shows ["Id", "Kind", "Type", "Target"]
          ((bindings.entries.take 1).map Listing.row) table ∧
        printed text = printed (Listing.title ⟨"NC1"⟩) ++ [] :: table ++
          if 1 < bindings.size then [[], Listing.left (bindings.size - 1)] else [] := by
  have hrun : (firstRun shelved).any (fun p =>
      decide (p.2.1.store.disk.listed p.1.rootContext (some "d") = .ok ⟨⟨"NC0"⟩, ⟨"NC1"⟩⟩) &&
      (p.2.1.store.disk.load ⟨"NC1"⟩).toOption.any (·.any fun stored => stored.size == 2 &&
        stored.entries.all fun b => (Listing.row b).all (decide <| Frame.Fits ·)) &&
      ((p.1.execute (.list (some "d") 1 "text")).serve p.2.1).any (·.1.isOk)) = true := by
    decide +kernel
  obtain ⟨⟨service, s, history⟩, hrun, hseen⟩ := (Option.any_eq_true _ _).mp hrun
  obtain ⟨hseen, hserved⟩ := Bool.and_eq_true_iff.mp hseen
  obtain ⟨hplace, hstored⟩ := Bool.and_eq_true_iff.mp hseen
  obtain ⟨bindings, hload, hall⟩ := Disk.load_seen hstored
  obtain ⟨hsize, hfits⟩ := Bool.and_eq_true_iff.mp hall
  have hsize : bindings.size = 2 := beq_iff_eq.mp hsize
  have hfits : ∀ b ∈ bindings.entries, ∀ shown ∈ Listing.row b, Frame.Fits shown := by
    simpa only [List.all_eq_true, decide_eq_true_eq] using hfits
  obtain ⟨⟨result, t⟩, hserve, hok⟩ := (Option.any_eq_true _ _).mp hserved
  obtain ⟨_, _, hserve', hshown⟩ := list_shown Frame.draw_showsRows (Worked.firstRun hrun)
    (of_decide_eq_true hplace) hload 1
  cases Option.some.inj (hserve.symm.trans hserve')
  rcases hshown with ⟨hfailed, _⟩ | ⟨text, rfl, _, hreports, haccounts⟩
  · cases hok.symm.trans hfailed
  · have haccounts := haccounts (by omega) Nat.one_pos
    exact ⟨service, s, history, bindings, t, text, hrun, hload, hsize, hserve,
      (hreports 1).mpr (by omega), haccounts, haccounts.shown hfits⟩

/-- The text for a context with a binding, of which none is to be shown. -/
theorem list_shown_deferred : ¬ ∀ [Drawing], Frame.ShowsRows → ∀ (service : Service) (s : Server)
    (place : Option String) (c : Context) (bindings : BindingSet) (max : Nat) (text : String)
    (t : Server), Worked {} (some service) s →
    s.store.disk.listed service.rootContext place = .ok c →
    s.store.disk.load c.key = .ok (some bindings) →
    (service.execute (.list place max "text")).serve s = some (.ok text, t) →
    (text = Listing.nothing c.key ↔ bindings.size = 0) ∧
      ∀ count, Listing.Reports text count ↔ max < bindings.size ∧ count = bindings.size - max := by
  intro hclaim
  have hrun : (firstRun
      [.call ⟨"NC0"⟩ (.bind (.single ⟨.ofId "only", Eq.refl true⟩) "IOR:only")]).any (fun p =>
        decide (p.2.1.store.disk.listed p.1.rootContext none = .ok ⟨⟨"NC0"⟩, ⟨"NC0"⟩⟩) &&
        (p.2.1.store.disk.load ⟨"NC0"⟩).toOption.any (·.any (·.size == 1)) &&
        ((p.1.execute (.list none 0 "text")).serve p.2.1).any
          (·.1.toOption == some (Listing.nothing ⟨"NC0"⟩))) = true := by
    decide +kernel
  obtain ⟨⟨service, s, history⟩, hrun, hseen⟩ := (Option.any_eq_true _ _).mp hrun
  obtain ⟨hseen, hserved⟩ := Bool.and_eq_true_iff.mp hseen
  obtain ⟨hplace, hstored⟩ := Bool.and_eq_true_iff.mp hseen
  obtain ⟨bindings, hload, hsize⟩ := Disk.load_seen hstored
  obtain ⟨⟨result, t⟩, hserve, hsame⟩ := (Option.any_eq_true _ _).mp hserved
  cases result with
  | error failure => cases hsame
  | ok text =>
    have htext : text = Listing.nothing ⟨"NC0"⟩ := Option.some.inj (beq_iff_eq.mp hsame)
    have hnone : bindings.size = 0 := (hclaim Frame.draw_showsRows service s none _ bindings 0 text
      t (Worked.firstRun hrun) (of_decide_eq_true hplace) hload hserve).1.mp htext
    have hone : bindings.size = 1 := beq_iff_eq.mp hsize
    omega

end Service

end Naming
