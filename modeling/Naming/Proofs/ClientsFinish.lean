import Mathlib.Data.DFinsupp.WellFounded
import Naming.Proofs.PermittedSteps
import Naming.Proofs.CallsSerialised

namespace Naming

variable {α : Type} {n : Nat}

/-- The closing of the gate goes one way. -/
def Closing.rank : Closing → Nat
  | before => 0
  | inside => 1
  | after => 2

namespace Job

/-- What is left of a job after one step. -/
inductive Rest : Job α → Job α → Prop
  | step {action : Action} {next : action.Result → Job α} (r : action.Result) :
      Rest (next r) (.step action next)

theorem rest_wellFounded : WellFounded (Rest : Job α → Job α → Prop) := by
  refine ⟨fun job => ?_⟩
  induction job with
  | done a => exact ⟨_, fun _ h => nomatch h⟩
  | step action next ih =>
    refine ⟨_, fun _ h => ?_⟩
    cases h with
    | step r => exact ih r

end Job

/-- A step together with what it answers. -/
abbrev Turn := (a : Action) × a.Result

namespace Action

variable {may : Allowance} {st : Standing} {a : Action} {s t : Server} {r : a.Result}

/-- A record that is gone after a step was removed by it. -/
theorem performs_gone (hp : a.perform? s = some (r, t)) {key : ContextKey}
    (hs : s.store.disk.contains key = true) (ht : t.store.disk.contains key = false) :
    (⟨a, r⟩ : Turn) = ⟨.remove key, .ok true⟩ := by
  cases performs_writes hp with
  | nothing same =>
    rw [Disk.contains, same] at ht
    cases hs.symm.trans ht
  | saved saved =>
    rw [Disk.contains_eq, Disk.get?_save saved] at ht
    split at ht
    · cases ht
    · rw [← Disk.contains_eq, hs] at ht
      cases ht
  | removed removed =>
    rename_i other
    have hother : other = key := by
      rw [removed, Disk.contains_remove, hs, Bool.and_true] at ht
      exact (not_not.mp (of_decide_eq_false ht)).symm
    subst hother
    rcases performs_remove_cases hp with ⟨rfl, _⟩ | ⟨failure, _, hsame, _⟩
    · rw [hs]
    · rw [hsame, hs] at ht
      cases ht

/-- Steps that may have to wait: for a lock, or for the gate. -/
inductive Waits (st : Standing) : Action → Prop
  | lock {key : ContextKey} {id : Nat} (access : Access) (asks : st.grip = .asks key id) :
      Waits st (.enterLock id access)
  | shared (free : st.grip = .free) (outside : st.closing ≠ .inside) :
      Waits st (.enterGate .shared)
  | exclusive (free : st.grip = .free) (outside : st.sharing = 0)
      (first : st.closing = .before) : Waits st (.enterGate .exclusive)

theorem Permitted.goes (h : a.Permitted may st s) :
    a.Waits st ∨ ∃ r t, a.perform? s = some (r, t) := by
  cases h with
  | enterLock access asks => exact .inl (.lock access asks)
  | enterShared free loud outside => exact .inl (.shared free outside)
  | enterExclusive free outside first => exact .inl (.exclusive free outside first)
  | save holds regular lessens =>
    obtain ⟨_, hp, _⟩ := performs_save _ _ s
    exact .inr ⟨_, _, hp⟩
  | allocate inside =>
    simp only [perform?]
    split <;> exact .inr ⟨_, _, rfl⟩
  | _ => exact .inr ⟨_, _, rfl⟩

end Action

namespace Standing

variable {may : Allowance} {st st' : Standing} {a : Action} {s : Server} {own : Prop} {turn : Turn}

/-- What a turn changes of how a client stands, if it is its own turn: it is marked when a context
was made or removed, and the closing of the gate goes one way. -/
structure Moves (own : Prop) (turn : Turn) (st st' : Standing) : Prop where
  quiet : st'.quiet = st.quiet
  rank : st.closing.rank ≤ st'.closing.rank
  made : st'.made = true ↔ st.made = true ∨ ∃ key, own ∧ turn = ⟨.allocate, .ok key⟩
  taken : ∀ key, key ∈ st'.taken ↔ key ∈ st.taken ∨ own ∧ turn = ⟨.remove key, .ok true⟩

/-- Most turns leave no mark. -/
theorem Moves.unmarked (hquiet : st'.quiet = st.quiet)
    (hrank : st.closing.rank ≤ st'.closing.rank) (hmade : st'.made = st.made)
    (htaken : st'.taken = st.taken) (hallocate : ∀ key, own → turn ≠ ⟨.allocate, .ok key⟩)
    (hremove : ∀ key, own → turn ≠ ⟨.remove key, .ok true⟩) : Moves own turn st st' := by
  refine ⟨hquiet, hrank, ?_, fun key => ?_⟩
  · rw [hmade]
    exact (or_iff_left fun ⟨key, hown, hturn⟩ => hallocate key hown hturn).symm
  · rw [htaken]
    exact (or_iff_left fun ⟨hown, hturn⟩ => hremove key hown hturn).symm

theorem moves_own (h : a.Permitted may st s) (r : a.Result) :
    Moves True ⟨a, r⟩ st (st.after a r) := by
  cases h with
  | enterLock access asks =>
    refine .unmarked ?_ ?_ ?_ ?_ (by rintro _ _ ⟨⟩) (by rintro _ _ ⟨⟩) <;>
      simp only [after, asks, le_refl]
  | enterExclusive free outside first =>
    refine .unmarked rfl ?_ rfl rfl (by rintro _ _ ⟨⟩) (by rintro _ _ ⟨⟩)
    rw [first]
    exact Nat.zero_le _
  | leaveExclusive inside =>
    refine .unmarked rfl ?_ rfl rfl (by rintro _ _ ⟨⟩) (by rintro _ _ ⟨⟩)
    rw [inside]
    exact Nat.le_succ _
  | allocate inside =>
    cases r with
    | error failure =>
      exact .unmarked rfl (le_refl _) rfl rfl (by rintro _ _ ⟨⟩) (by rintro _ _ ⟨⟩)
    | ok key =>
      refine ⟨rfl, le_refl _, ⟨fun _ => .inr ⟨key, trivial, rfl⟩, fun _ => rfl⟩, fun other => ?_⟩
      exact (or_iff_left (by rintro ⟨_, ⟨⟩⟩)).symm
  | remove holds allowed =>
    rename_i key id
    rcases r with failure | found
    · exact .unmarked rfl (le_refl _) rfl rfl (by rintro _ _ ⟨⟩) (by rintro _ _ ⟨⟩)
    · cases found with
      | false => exact .unmarked rfl (le_refl _) rfl rfl (by rintro _ _ ⟨⟩) (by rintro _ _ ⟨⟩)
      | true =>
        refine ⟨rfl, le_refl _, (or_iff_left (by rintro ⟨_, _, ⟨⟩⟩)).symm, fun other => ?_⟩
        refine List.mem_cons.trans (or_comm.trans (or_congr_right ⟨?_, ?_⟩))
        · rintro rfl
          exact ⟨trivial, rfl⟩
        · rintro ⟨_, ⟨⟩⟩
          rfl
  | _ => exact .unmarked rfl (le_refl _) rfl rfl (by rintro _ _ ⟨⟩) (by rintro _ _ ⟨⟩)

/-- A turn of another client changes nothing of how a client stands. -/
theorem moves_other (hother : ¬ own) : Moves own turn st st :=
  .unmarked rfl (le_refl _) rfl rfl (fun _ hown => absurd hown hother) fun _ hown =>
    absurd hown hother

/-- Who stands calm before and after a time was calm all the time. -/
theorem Calm.between {st'' : Standing} (h : st.Calm) (h'' : st''.Calm)
    (hmoves : Moves own turn st st') (hquiet : st''.quiet = st'.quiet)
    (hrank : st'.closing.rank ≤ st''.closing.rank) : st'.Calm := by
  rcases h with hq | hin
  · exact .inl (hmoves.quiet.trans hq)
  · rcases h'' with hq | hin'
    · exact .inl (hquiet.symm.trans hq)
    · have hbefore := hmoves.rank
      rw [hin] at hbefore
      rw [hin'] at hrank
      refine .inr ?_
      cases hc : st'.closing with
      | inside => rfl
      | before =>
        rw [hc] at hbefore
        exact absurd hbefore (by decide)
      | after =>
        rw [hc] at hrank
        exact absurd hrank (by decide)

end Standing

namespace Race

/-- A client takes a step with an answer. -/
structure Takes (race : Race n α) (i : Fin n) (a : Action) (r : a.Result) (race' : Race n α) :
    Prop where
  performs : a.perform? race.server = some (r, race'.server)
  goes : ∃ next, race.jobs i = .step a next ∧ race'.jobs = Function.update race.jobs i (next r)

theorem turn_takes {race race' : Race n α} {i : Fin n} (h : race.turn i = some race') :
    ∃ a r, race.Takes i a r race' := by
  unfold turn at h
  split at h
  · cases h
  · rename_i a next hjob
    obtain ⟨⟨r, t⟩, hp, rfl⟩ := Option.map_eq_some_iff.mp h
    exact ⟨a, r, hp, next, hjob, rfl⟩

/-- A client took a step with this answer when the race was played like this. -/
inductive Took (i : Fin n) (a : Action) (r : a.Result) : Race n α → List (Fin n) → Prop
  | now {race between : Race n α} {rest : List (Fin n)} (turn : race.turn i = some between)
      (takes : race.Takes i a r between) : Took i a r race (i :: rest)
  | later {race between : Race n α} {j : Fin n} {rest : List (Fin n)}
      (turn : race.turn j = some between) (took : Took i a r between rest) :
      Took i a r race (j :: rest)

/-- Each client stands somewhere, and goes on from there as it is assured. -/
structure Kept (may : Fin n → Allowance) (told : Fin n → α → Standing → Server → Prop)
    (crowd : Fin n → Standing) (race : Race n α) : Prop where
  hosts : race.server.Hosts crowd
  assures : ∀ i, (race.jobs i).Assures (may i) (told i) (crowd i) race.server

variable {may : Fin n → Allowance} {told : Fin n → α → Standing → Server → Prop}
  {crowd crowd' : Fin n → Standing} {race between race' : Race n α} {i j : Fin n} {a : Action}
  {r : a.Result} {schedule : List (Fin n)}

/-- A client that is not done may take its next step, if that can be taken. -/
theorem Kept.permitted (h : race.Kept may told crowd) {next : a.Result → Job α}
    (hi : race.jobs i = .step a next) :
    a.Permitted (may i) (crowd i) race.server ∧
      ((crowd i).made = true → 0 < (crowd i).sharing) := by
  have hassures := h.assures i
  rw [hi] at hassures
  obtain ⟨hgo, hpermitted, _⟩ := hassures race.server (h.hosts.sees i) (.refl _ _)
  exact ⟨hpermitted, hgo⟩

/-- A client that is done has come to what was told. -/
theorem Kept.comes (h : race.Kept may told crowd) {answer : α} (hi : race.jobs i = .done answer) :
    told i answer (crowd i) race.server := by
  have hassures := h.assures i
  rw [hi] at hassures
  exact hassures race.server (h.hosts.sees i) (.refl _ _)

theorem Kept.turn (h : race.Kept may told crowd) (ht : race.Takes i a r race') :
    race'.Kept may told (Function.update crowd i ((crowd i).after a r)) := by
  obtain ⟨hp, next, hi, hjobs⟩ := ht
  have hpermitted := (h.permitted hi).1
  refine ⟨h.hosts.step hpermitted hp, fun j => ?_⟩
  rw [hjobs]
  by_cases hj : j = i
  · subst hj
    have hassures := h.assures j
    rw [hi] at hassures
    obtain ⟨_, _, hnext⟩ := hassures race.server (h.hosts.sees j) (.refl _ _)
    rw [Function.update_self, Function.update_self]
    exact hnext r race'.server hp
  · rw [Function.update_of_ne hj, Function.update_of_ne hj]
    exact (h.assures j).later (h.hosts.bears hpermitted hp hj)

/-- What was not changed behind the back of a client, or by itself. -/
theorem Kept.onward (h : race.Kept may told crowd) (ht : race.Takes i a r race') (j : Fin n) :
    race.server.Onward (crowd j).Calm race'.server := by
  obtain ⟨hp, next, hi, _⟩ := ht
  have hpermitted := (h.permitted hi).1
  by_cases hj : j = i
  · subst hj
    exact hpermitted.onward (h.hosts.sees j) hp
  · exact (h.hosts.bears hpermitted hp hj).toOnward

theorem Takes.unique {b : Action} {q : b.Result} (h : race.Takes i a r race')
    (h' : race.Takes i b q race') : (⟨a, r⟩ : Turn) = ⟨b, q⟩ := by
  obtain ⟨hp, next, hi, _⟩ := h
  obtain ⟨hp', next', hi', _⟩ := h'
  rw [hi] at hi'
  cases hi'
  rw [hp] at hp'
  cases hp'
  rfl

theorem took_cons {b : Action} {q : b.Result} {rest : List (Fin n)}
    (ht : race.turn i = some between) (htakes : race.Takes i a r between) :
    race.Took j b q (i :: rest) ↔ j = i ∧ (⟨a, r⟩ : Turn) = ⟨b, q⟩ ∨ between.Took j b q rest := by
  constructor
  · intro h
    cases h with
    | now turn takes =>
      cases ht.symm.trans turn
      exact .inl ⟨rfl, htakes.unique takes⟩
    | later turn took =>
      cases ht.symm.trans turn
      exact .inr took
  · rintro (⟨rfl, hturn⟩ | htook)
    · cases hturn
      exact .now ht htakes
    · exact .later ht htook

/-- How each client stands after a turn of one of them. -/
theorem Kept.moves (h : race.Kept may told crowd) (ht : race.Takes i a r race') (j : Fin n) :
    Standing.Moves (j = i) ⟨a, r⟩ (crowd j)
      (Function.update crowd i ((crowd i).after a r) j) := by
  obtain ⟨_, next, hi, _⟩ := ht
  by_cases hj : j = i
  · subst hj
    rw [Function.update_self, eq_self]
    exact Standing.moves_own (h.permitted hi).1 r
  · rw [Function.update_of_ne hj]
    exact Standing.moves_other hj

/-- What a play leaves behind: who made and removed contexts, and that nothing was added as long as
some client stood calm. -/
structure Course (schedule : List (Fin n)) (crowd crowd' : Fin n → Standing)
    (race race' : Race n α) : Prop where
  made : ∀ i, (crowd' i).made = true ↔
    (crowd i).made = true ∨ ∃ key, race.Took i .allocate (.ok key) schedule
  taken : ∀ i key, key ∈ (crowd' i).taken ↔
    key ∈ (crowd i).taken ∨ race.Took i (.remove key) (.ok true) schedule
  quiet : ∀ i, (crowd' i).quiet = (crowd i).quiet
  rank : ∀ i, (crowd i).closing.rank ≤ (crowd' i).closing.rank
  fails : race'.server.store.faults.fails = race.server.store.faults.fails
  shrinks : ∀ i, (crowd i).Calm → (crowd' i).Calm → race.server.Shrinks race'.server

theorem Course.nil (crowd : Fin n → Standing) (race : Race n α) :
    Course [] crowd crowd race race :=
  ⟨fun _ => ⟨.inl, fun h => h.elim id nofun⟩, fun _ _ => ⟨.inl, fun h => h.elim id nofun⟩,
    fun _ => rfl, fun _ => le_refl _, rfl, fun _ _ _ => .refl _⟩

theorem Course.cons {rest : List (Fin n)} (h : race.Kept may told crowd)
    (ht : race.turn i = some between) (htakes : race.Takes i a r between)
    (hrest : Course rest (Function.update crowd i ((crowd i).after a r)) crowd' between race') :
    Course (i :: rest) crowd crowd' race race' := by
  have hmoves := h.moves htakes
  refine ⟨fun j => ?_, fun j key => ?_, fun j => (hrest.quiet j).trans (hmoves j).quiet,
    fun j => (hmoves j).rank.trans (hrest.rank j), hrest.fails.trans (h.onward htakes i).fails,
    fun j hcalm hcalm' => ?_⟩
  · simp only [hrest.made, (hmoves j).made, took_cons ht htakes, exists_or, or_assoc]
  · simp only [hrest.taken, (hmoves j).taken, took_cons ht htakes, or_assoc]
  · have hbetween := hcalm.between hcalm' (hmoves j) (hrest.quiet j) (hrest.rank j)
    exact ((h.onward htakes j).calm hcalm).trans (hrest.shrinks j hbetween hcalm')

/-- What a step keeps, a play keeps. -/
theorem Kept.play (h : race.Kept may told crowd) (hp : race.play schedule = some race') :
    ∃ crowd', race'.Kept may told crowd' ∧ Course schedule crowd crowd' race race' := by
  induction schedule generalizing race crowd with
  | nil =>
    cases hp
    exact ⟨crowd, h, .nil _ _⟩
  | cons i rest ih =>
    obtain ⟨between, hturn, hp⟩ := Option.bind_eq_some_iff.mp hp
    obtain ⟨a, r, htakes⟩ := turn_takes hturn
    obtain ⟨crowd', hkept, hcourse⟩ := ih (h.turn htakes) hp
    exact ⟨crowd', hkept, .cons h hturn htakes hcourse⟩

/-- Clients that are about to have their tasks done. -/
def ofTasks (service : Service) (tasks : Fin n → Task) (s : Server) :
    Race n (Except Failure Answer) where
  server := s
  jobs i := (tasks i).request service

/-- On a server at rest all clients stand the same. -/
theorem Kept.begins {s : Server} {jobs : Fin n → Job α} (quiet : Bool) (hs : s.AtRest)
    (hsound : s.Sound) (h : ∀ i, (jobs i).Assures (may i) (told i) { quiet := quiet } s) :
    Kept may told (fun _ => { quiet := quiet }) ⟨s, jobs, []⟩ := by
  have hfree : s.memory.gate = {} := hs.free
  refine ⟨⟨hsound.disk, fun key _ => hsound.backs key, .idle hs.idle, ?_⟩, h⟩
  change s.memory.gate.Admits _
  rw [hfree]
  exact ⟨(Finset.sum_eq_zero fun _ _ => rfl).symm, ⟨nofun, fun ⟨_, hin⟩ => nomatch hin⟩, nofun,
    fun _ _ _ => rfl, fun _ _ => rfl⟩

/-- A record that is gone after a play was removed by somebody. -/
theorem took_of_gone {key : ContextKey} (hp : race.play schedule = some race')
    (hc : race.server.store.disk.contains key = true)
    (hgone : race'.server.store.disk.contains key = false) :
    ∃ i, race.Took i (.remove key) (.ok true) schedule := by
  induction schedule generalizing race with
  | nil =>
    cases hp
    cases hc.symm.trans hgone
  | cons i rest ih =>
    obtain ⟨between, hturn, hp⟩ := Option.bind_eq_some_iff.mp hp
    obtain ⟨a, r, htakes⟩ := turn_takes hturn
    cases hb : between.server.store.disk.contains key with
    | true =>
      obtain ⟨j, htook⟩ := ih hp hb
      exact ⟨j, .later hturn htook⟩
    | false =>
      have hremoved := Action.performs_gone htakes.performs hc hb
      exact ⟨i, (took_cons hturn htakes).mpr (.inl ⟨rfl, hremoved⟩)⟩

/-- Nobody can take a step. -/
def Stuck (race : Race n α) : Prop := ∀ i, race.turn i = none

theorem Stuck.blocked (hstuck : race.Stuck) {next : a.Result → Job α}
    (hi : race.jobs i = .step a next) : a.perform? race.server = none := by
  refine Option.eq_none_iff_forall_ne_some.mpr fun p hp => ?_
  obtain ⟨between, hturn⟩ := race.goes_step hi hp
  cases (hstuck i).symm.trans hturn

namespace Kept

/-- Where nobody can take a step, all that are not done wait. -/
theorem waits (h : race.Kept may told crowd) (hstuck : race.Stuck) {next : a.Result → Job α}
    (hi : race.jobs i = .step a next) : a.Waits (crowd i) := by
  refine (h.permitted hi).1.goes.resolve_right ?_
  rintro ⟨q, u, hp⟩
  rw [hstuck.blocked hi] at hp
  cases hp

/-- So nobody has a lock. -/
theorem unheld (h : race.Kept may told crowd) (hstuck : race.Stuck)
    (htold : ∀ i answer st s, told i answer st s → st.Away) (i : Fin n) (key : ContextKey)
    (id : Nat) (access : Access) : (crowd i).grip ≠ .holds key id access := by
  intro hheld
  cases hi : race.jobs i with
  | done answer => cases (htold _ _ _ _ (h.comes hi)).free.symm.trans hheld
  | step a next =>
    cases h.waits hstuck hi with
    | lock _ asks => cases asks.symm.trans hheld
    | shared free | exclusive free => cases free.symm.trans hheld

/-- So nobody waits for one. -/
theorem unasked (h : race.Kept may told crowd) (hstuck : race.Stuck)
    (htold : ∀ i answer st s, told i answer st s → st.Away) {id : Nat} {access : Access}
    {next : (Action.enterLock id access).Result → Job α} :
    race.jobs i ≠ .step (.enterLock id access) next := by
  intro hi
  cases h.waits hstuck hi with
  | lock _ asks =>
    obtain ⟨locks, henter⟩ :=
      h.hosts.locks.enters asks (fun k _ _ => h.unheld hstuck htold k _ _ _) access
    have hp := hstuck.blocked hi
    simp only [Action.perform?, henter, Option.map_some, reduceCtorEq] at hp

/-- So all that are left are before the gate, which nobody has closed. -/
theorem opened (h : race.Kept may told crowd) (hstuck : race.Stuck)
    (htold : ∀ i answer st s, told i answer st s → st.Away) :
    race.server.memory.gate.closed = false := by
  rw [← Bool.not_eq_true, h.hosts.gate.closed]
  rintro ⟨i, hinside⟩
  cases hi : race.jobs i with
  | done answer => exact (htold _ _ _ _ (h.comes hi)).outside hinside
  | step a next =>
    cases h.waits hstuck hi with
    | lock => exact h.unasked hstuck htold hi
    | shared _ outside => exact outside hinside
    | exclusive _ _ first => cases first.symm.trans hinside

/-- So nobody shares it. -/
theorem unshared (h : race.Kept may told crowd) (hstuck : race.Stuck)
    (htold : ∀ i answer st s, told i answer st s → st.Away) (i : Fin n) :
    (crowd i).sharing = 0 := by
  cases hi : race.jobs i with
  | done answer => exact (htold _ _ _ _ (h.comes hi)).unshared
  | step a next =>
    cases h.waits hstuck hi with
    | lock => exact absurd hi (h.unasked hstuck htold)
    | shared =>
      have hp := hstuck.blocked hi
      simp [Action.perform?, Gate.enter?, h.opened hstuck htold] at hp
    | exclusive _ outside => exact outside

/-- As long as not all are done somebody can go on, if who is done has nothing of the locks and of
the gate. -/
theorem goes_on (h : race.Kept may told crowd)
    (htold : ∀ i answer st s, told i answer st s → st.Away) {next : a.Result → Job α}
    (hi : race.jobs i = .step a next) : ∃ j next, race.turn j = some next := by
  by_contra hnone
  have hstuck : race.Stuck := fun j =>
    Option.eq_none_iff_forall_ne_some.mpr fun next hturn => hnone ⟨j, next, hturn⟩
  have hopen := h.opened hstuck htold
  have hsharers : race.server.memory.gate.sharers = 0 :=
    h.hosts.gate.sharers.trans (Finset.sum_eq_zero fun j _ => h.unshared hstuck htold j)
  have hp := hstuck.blocked hi
  cases h.waits hstuck hi with
  | lock => exact h.unasked hstuck htold hi
  | shared => simp [Action.perform?, Gate.enter?, hopen] at hp
  | exclusive => simp [Action.perform?, Gate.enter?, hopen, hsharers] at hp

end Kept

/-- Every race can be played to its end. -/
theorem Kept.finishes (h : race.Kept may told crowd)
    (htold : ∀ i answer st s, told i answer st s → st.Away) :
    ∃ schedule race', race.play schedule = some race' ∧
      ∀ i, ∃ answer, race'.jobs i = .done answer := by
  have hwf := Pi.Lex.wellFounded (α := fun _ : Fin n => Job α) (· < ·)
    fun _ => Job.rest_wellFounded
  generalize hjobs : race.jobs = jobs
  induction jobs using hwf.induction generalizing race crowd with
  | h jobs ih =>
    subst hjobs
    by_cases hdone : ∀ i, ∃ answer, race.jobs i = .done answer
    · exact ⟨[], race, rfl, hdone⟩
    · push Not at hdone
      obtain ⟨i, hi⟩ := hdone
      have hgoes : ∃ j next, race.turn j = some next := by
        cases hjob : race.jobs i with
        | done answer => exact absurd hjob (hi answer)
        | step a next => exact h.goes_on htold hjob
      obtain ⟨j, between, hturn⟩ := hgoes
      obtain ⟨a, r, htakes⟩ := turn_takes hturn
      obtain ⟨next, hj, hnext⟩ := htakes.goes
      have hless : Pi.Lex (· < ·) (fun {_} => Job.Rest) between.jobs race.jobs := by
        refine ⟨j, fun k hk => ?_, ?_⟩
        · rw [hnext, Function.update_of_ne hk.ne]
        · rw [hnext, Function.update_self, hj]
          exact .step r
      obtain ⟨rest, race', hplay, hlast⟩ := ih _ hless (h.turn htakes) rfl
      exact ⟨j :: rest, race', Option.bind_eq_some_iff.mpr ⟨between, hturn, hplay⟩, hlast⟩

end Race

end Naming
