import Naming.Proofs.ReachedAtRest

namespace Naming

variable {α : Type} {service : Service} {s t : Server} {bindings : BindingSet}

/-- What is asked for shows what is on the disk, unless a load is refused. -/
theorem Request.Views.shows {r : Request α} {view : Disk → Except Failure α}
    {result : Except Failure α} (h : r.Views [.load] view) (hs : s.Ready) (hfair : s.Fair)
    (hr : r.serve s = some (result, t)) :
    result = view s.store.disk ∨ result.isOk = false ∧ s.store.Refused t.store .load := by
  cases h.fairly hs hfair hr with
  | refused made refusal same => exact .inr ⟨rfl, List.mem_singleton.mp made ▸ refusal⟩
  | failed failure_told same =>
    refine .inl ?_
    cases hview : view s.store.disk with
    | error failure =>
      rw [hview] at failure_told
      cases failure_told
      rfl
    | ok a =>
      rw [hview] at failure_told
      cases failure_told
  | done result_told =>
    obtain ⟨b, hview, he⟩ := Store.map_ok result_told
    exact .inl ((Prod.mk.inj he).1 ▸ hview.symm)

/-- What is left of a listing after its first page, if anything is. -/
def BindingSet.more (s : BindingSet) (max : Nat) : Option Cursor :=
  if (s.page max).2.isEmpty then none else some ⟨(s.page max).2⟩

namespace BindingSet

variable {max : Nat} {cursor : Cursor}

theorem more_isSome_iff : (bindings.more max).isSome = true ↔ max < bindings.size := by
  simp only [more, page, List.isEmpty_iff, List.drop_eq_nil_iff, size]
  split
  · rename_i hle
    simpa using hle
  · rename_i hlt
    simpa using hlt

theorem more_eq_some (h : bindings.more max = some cursor) :
    cursor.remaining = bindings.entries.drop max := by
  unfold more at h
  split at h
  · cases h
  · cases h
    rfl

theorem more_getD : ((bindings.more max).map (·.remaining)).getD [] =
    bindings.entries.drop max := by
  unfold more page
  cases bindings.entries.drop max <;> rfl

end BindingSet

theorem Context.views_list (c : Context) (max : Nat) : (c.list max).Views [.load] fun d =>
    d.look c.key fun s => .ok ((s.page max).1, s.more max) :=
  views_look c.key .list _

/-- A client that reads on in a listing while all else goes on: the service that runs, its server,
what is left of the listing, and what the client was given of it so far. -/
structure Reader where
  running : Option Service
  server : Server
  cursor : Cursor
  given : List Binding := []

namespace Reader

/-- What happens next: the client asks for one more binding, or for several, or somebody gives the
service work, or the service is started again. -/
inductive Turn where
  | next
  | take (count : Nat)
  | work (work : Work)
  | restart (retention : Retention)

/-- How many bindings are asked for. -/
def Turn.asked : Turn → Nat
  | next => 1
  | take count => count
  | work _ => 0
  | restart _ => 0

/-- Work that nobody can do is not done. -/
def turn? [Drawing] (r : Reader) : Turn → Option Reader
  | .next => some { r with
      cursor := r.cursor.next.2
      given := r.given ++ r.cursor.next.1.toList }
  | .take count => some { r with
      cursor := (r.cursor.take count).2
      given := r.given ++ (r.cursor.take count).1 }
  | .work work =>
    match r.running with
    | none => some r
    | some service => (work.carry? service r.server).map fun s => { r with server := s }
  | .restart retention =>
    (Service.start.serve (r.server.restart retention)).map fun p =>
      { r with running := p.1.toOption, server := p.2 }

def play? [Drawing] (r : Reader) : List Turn → Option Reader
  | [] => some r
  | turn :: rest => (r.turn? turn).bind (·.play? rest)

/-- What a client was given and what is left for it are together what they were before, and as much
was given as was asked for, until nothing was left. -/
structure ReadsOn (r r' : Reader) (asked : Nat) : Prop where
  rest : r'.server.AtRest
  whole : r'.given ++ r'.cursor.remaining = r.given ++ r.cursor.remaining
  left : r'.cursor.size = r.cursor.size - asked

variable {r r' r'' : Reader}

theorem ReadsOn.trans {asked more : Nat} (h : r.ReadsOn r' asked) (h' : r'.ReadsOn r'' more) :
    r.ReadsOn r'' (asked + more) := by
  refine ⟨h'.rest, h'.whole.trans h.whole, ?_⟩
  rw [h'.left, h.left, Nat.sub_sub]

/-- What one turn preserves, which always comes to an end. -/
theorem turn_readsOn [Drawing] (hs : r.server.AtRest) (turn : Turn) :
    ∃ r', r.turn? turn = some r' ∧ r.ReadsOn r' turn.asked := by
  cases turn with
  | next =>
    refine ⟨_, rfl, hs, ?_, ?_⟩
    · simp only [Cursor.next, List.append_assoc]
      cases r.cursor.remaining <;> rfl
    · simp only [Cursor.next, Cursor.size, List.length_tail, Turn.asked]
  | take count =>
    refine ⟨_, rfl, hs, ?_, ?_⟩
    · simp only [Cursor.take, List.append_assoc, List.take_append_drop]
    · simp only [Cursor.take, Cursor.size, List.length_drop, Turn.asked]
  | work work =>
    cases hrunning : r.running with
    | none =>
      refine ⟨r, ?_, hs, rfl, rfl⟩
      simp only [turn?, hrunning]
    | some service =>
      obtain ⟨t, htakes, hrest, _⟩ := work.serves service hs
      refine ⟨{ r with server := t }, ?_, hrest, rfl, rfl⟩
      simp only [turn?, hrunning, Work.carry?_eq_some_iff.mpr htakes, Option.map_some]
  | restart retention =>
    obtain ⟨result, t, hserve, hrest, _⟩ := Service.start_serves r.server retention
    refine ⟨{ r with running := result.toOption, server := t }, ?_, hrest, rfl, rfl⟩
    simp only [turn?, hserve, Option.map_some]

/-- What all turns preserve. -/
theorem play_readsOn [Drawing] (hs : r.server.AtRest) (turns : List Turn) :
    ∃ r', r.play? turns = some r' ∧ r.ReadsOn r' (turns.map Turn.asked).sum := by
  induction turns generalizing r with
  | nil => exact ⟨r, rfl, hs, rfl, rfl⟩
  | cons turn rest ih =>
    obtain ⟨between, hturn, hfirst⟩ := turn_readsOn hs turn
    obtain ⟨last, hplay, hothers⟩ := ih hfirst.rest
    refine ⟨last, ?_, ?_⟩
    · rw [play?, hturn, Option.bind_some, hplay]
    · rw [List.map_cons, List.sum_cons]
      exact hfirst.trans hothers

/-- A page and what was given after it account for a context, when this many were asked for after
the page. -/
structure Accounts (r : Reader) (bindings : BindingSet) (page : List Binding) (asked : Nat) :
    Prop where
  inOrder : page ++ r.given <+: bindings.entries
  count : (page ++ r.given).length + r.cursor.size = bindings.size
  left : r.cursor.size = bindings.size - page.length - asked
  exhausted_iff : r.cursor.isExhausted = true ↔ page ++ r.given = bindings.entries

theorem ReadsOn.accounts {page : List Binding} {asked : Nat} (h : r.ReadsOn r' asked)
    (hgiven : r.given = []) (hwhole : page ++ r.cursor.remaining = bindings.entries) :
    r'.Accounts bindings page asked := by
  have hsame := h.whole
  rw [hgiven, List.nil_append] at hsame
  have hparts : (page ++ r'.given) ++ r'.cursor.remaining = bindings.entries := by
    rw [List.append_assoc, hsame, hwhole]
  have hlength := congrArg List.length hparts
  refine ⟨⟨_, hparts⟩, ?_, ?_, ?_⟩
  · rw [Cursor.size, ← List.length_append]
    exact hlength
  · have hbefore := congrArg List.length hwhole
    rw [List.length_append] at hbefore
    rw [h.left, BindingSet.size, ← hbefore, Nat.add_sub_cancel_left, Cursor.size]
  · rw [Cursor.isExhausted, List.isEmpty_iff, ← hparts]
    exact List.self_eq_append_right.symm

end Reader

namespace Service

variable {key : ContextKey}

/-- Pagination loses and repeats nothing. However a client reads on, and whatever is done meanwhile,
it is given the bindings that the context had when it was listed, each once and in order. -/
theorem list_accounts [Drawing] (h : Worked {} (some service) s)
    (hload : s.store.disk.load key = .ok (some bindings)) (max : Nat) :
    (∃ result t, ((service.context key).list max).serve s = some (result, t) ∧
      (result.isOk = false ∧ s.store.Refused t.store .load ∨
        ∃ page more, result = .ok (page, more) ∧ page = bindings.entries.take max ∧
          (more.isSome = true ↔ max < bindings.size) ∧
          ∀ cursor, more = some cursor → ∀ turns, ∃ r,
            (Reader.mk (some service) t cursor []).play? turns = some r ∧
              r.Accounts bindings page (turns.map Reader.Turn.asked).sum)) ∧
    ∃ result t, (service.handle key.text "list" (.list max)).serve s = some (result, t) ∧
      (result.isOk = false ∧ s.store.Refused t.store .load ∨
        ∃ page rest, result = .ok (.listing page rest) ∧ page = bindings.entries.take max ∧
          page ++ rest = bindings.entries) := by
  have hrest := h.rest
  have hfair := (h.sound Disk.sound_empty).fair
  have hviews := (service.context key).views_list max
  have hshown : s.store.disk.look key (fun b => .ok ((b.page max).1, b.more max)) =
      .ok ((bindings.page max).1, bindings.more max) := Disk.look_stored hload _
  refine ⟨?_, ?_⟩
  · obtain ⟨result, t, hserve, hk, _⟩ := hviews.orderly.serves hrest.idle fun _ => hrest.opened
    refine ⟨result, t, hserve, ?_⟩
    rcases hviews.shows hrest.ready hfair hserve with hresult | hrefused
    · refine .inr ⟨_, _, hresult.trans hshown, rfl, BindingSet.more_isSome_iff, ?_⟩
      intro cursor hcursor turns
      obtain ⟨r, hplay, hreads⟩ := Reader.play_readsOn
        (r := ⟨some service, t, cursor, []⟩) ⟨hk.locks, hk.gate.trans hrest.free⟩ turns
      refine ⟨r, hplay, hreads.accounts rfl ?_⟩
      rw [BindingSet.more_eq_some hcursor]
      exact List.take_append_drop max _
    · exact .inl hrefused
  · rcases service.handle_serves key.text "list" (.list max) s with
      ⟨failure, hrefused, _⟩ | ⟨_, event, hserve⟩
    · cases hrefused
    · have hlisted := hviews.map fun p => Reply.listing p.1 ((p.2.map (·.remaining)).getD [])
      obtain ⟨result, t, hcall, _⟩ := hlisted.orderly.serves (s := s.note event) hrest.idle
        fun _ => hrest.opened
      refine ⟨result, t, hserve.trans hcall, ?_⟩
      rcases hlisted.shows (hrest.ready.note event) ⟨hfair.disk, hfair.resident⟩ hcall with
        hresult | hrefused
      · refine .inr ⟨_, _, hresult.trans (congrArg (Except.map _) hshown), rfl, ?_⟩
        rw [BindingSet.more_getD]
        exact List.take_append_drop max _
      · exact .inl hrefused

/-- One of three bindings is taken away and the service is started again while a client reads on. -/
def readOn : List Reader.Turn :=
  [.take 1, .work (.task (.call ⟨"NC0"⟩ (.unbind (.single ⟨.ofId "c", Eq.refl true⟩)))),
    .restart (.cache 1), .next, .work (.command .sweep), .take 9]

theorem list_accounts_unbound : ∃ service s history bindings page cursor t r,
    firstRun [.call ⟨"NC0"⟩ (.bind (.single ⟨.ofId "a", Eq.refl true⟩) "first"),
        .call ⟨"NC0"⟩ (.bind (.single ⟨.ofId "b", Eq.refl true⟩) "second"),
        .call ⟨"NC0"⟩ (.bind (.single ⟨.ofId "c", Eq.refl true⟩) "third")] =
      some (service, s, history) ∧ s.store.disk.load ⟨"NC0"⟩ = .ok (some bindings) ∧
    ((service.context ⟨"NC0"⟩).list 1).serve s = some (.ok (page, some cursor), t) ∧
    (Reader.mk (some service) t cursor []).play? readOn = some r ∧ r.given.length = 2 ∧
    r.Accounts bindings page 11 := by
  have hrun : (firstRun [.call ⟨"NC0"⟩ (.bind (.single ⟨.ofId "a", Eq.refl true⟩) "first"),
      .call ⟨"NC0"⟩ (.bind (.single ⟨.ofId "b", Eq.refl true⟩) "second"),
      .call ⟨"NC0"⟩ (.bind (.single ⟨.ofId "c", Eq.refl true⟩) "third")]).any (fun p =>
        p.2.1.store.disk.contains ⟨"NC0"⟩ &&
        (((p.1.context ⟨"NC0"⟩).list 1).serve p.2.1).any fun q =>
          (q.1.toOption.bind (·.2)).any fun cursor =>
            ((Reader.mk (some p.1) q.2 cursor []).play? readOn).any fun r =>
              r.given.length == 2) = true := by
    decide +kernel
  obtain ⟨⟨service, s, history⟩, hrun, hseen⟩ := (Option.any_eq_true _ _).mp hrun
  obtain ⟨hstored, hseen⟩ := Bool.and_eq_true_iff.mp hseen
  obtain ⟨bindings, hload⟩ := ((Worked.firstRun hrun).sound Disk.sound_empty).disk.load_contained
    hstored
  obtain ⟨⟨result, t⟩, hlist, hseen⟩ := (Option.any_eq_true _ _).mp hseen
  obtain ⟨⟨_, _, hlist', hlisted⟩, _⟩ := list_accounts (Worked.firstRun hrun) hload 1
  cases Option.some.inj (hlist.symm.trans hlist')
  rcases hlisted with ⟨hfailed, _⟩ | ⟨page, more, rfl, _, _, hturns⟩
  · cases result with
    | error failure => cases hseen
    | ok _ => cases hfailed
  · obtain ⟨cursor, hmore, hseen⟩ := (Option.any_eq_true _ _).mp hseen
    cases hmore
    obtain ⟨r, hplay, hgiven⟩ := (Option.any_eq_true _ _).mp hseen
    obtain ⟨_, hplay', haccounts⟩ := hturns cursor rfl readOn
    cases hplay.symm.trans hplay'
    exact ⟨service, s, history, bindings, page, cursor, t, r, hrun, hload, hlist, hplay,
      beq_iff_eq.mp hgiven, haccounts⟩

end Service

end Naming
