import Naming.Proofs.CallOutcomes

namespace Naming

variable {s t : Server} {n : Nat} {key : ContextKey}

/-- The context that a call makes, told by its reply. -/
def Call.makes : Call → Reply → Option ContextKey
  | newContext, .context key => some key
  | bindNewContext _, .context key => some key
  | _, _ => none

def Task.makes : Task → Answer → Option ContextKey
  | call _ c, .reply reply => c.makes reply
  | handle _ _ c, .reply reply => c.makes reply
  | newContext, .context key => some key
  | _, _ => none

/-- What a call makes is made under a key that is handed out for it, and a context that is handed
out unbound is left as it was made. -/
theorem Call.told_makes {c : Context} {call : Call} {d e : Disk} {reply : Reply}
    (h : call.told c d = .ok (reply, e)) (hm : call.makes reply = some key) :
    ∃ f, d.create = .ok (key, f) ∧ (call.handsOut reply = some key → e = f) := by
  cases call with
  | newContext =>
    obtain ⟨_, hdone, he⟩ := Store.map_ok h
    cases he
    cases hm
    obtain ⟨_, _, hmade⟩ := bind_ok hdone
    exact ⟨_, hmade, fun _ => rfl⟩
  | bindNewContext name =>
    obtain ⟨_, hdone, he⟩ := Store.map_ok h
    cases he
    obtain ⟨_, _, hdone⟩ := bind_ok hdone
    obtain ⟨_, hmade, hdone⟩ := bind_ok hdone
    obtain ⟨_, _, he⟩ := bind_ok hdone
    cases he
    cases hm
    exact ⟨_, hmade, fun hh => nomatch hh⟩
  | _ => cases hm

theorem Task.request_makes {service : Service} {task : Task} {answer : Answer} (hs : s.AtRest)
    (hsound : s.Sound) (hkeyed : s.store.disk.Keyed n) (hroot : service.root.Below n)
    (h : (task.request service).serve s = some (.ok answer, t))
    (hm : task.makes answer = some key) :
    ∃ d, s.store.disk.create = .ok (key, d) ∧
      (task.handsOut answer = some key → t.store.disk = d) := by
  have hcall : ∀ {c : Call} {k : ContextKey} {u : Server} {reply : Reply}, u.Ready → u.Sound →
      u.store = s.store → (c.run (service.context k)).serve u = some (.ok reply, t) →
      c.makes reply = some key → ∃ d, s.store.disk.create = .ok (key, d) ∧
        (c.handsOut reply = some key → t.store.disk = d) := by
    intro c k u reply hu husound hus hr hm
    have hends := Call.run_ends hu husound (hus.symm ▸ hkeyed) hroot hr
    rw [hus] at hends
    exact Call.told_makes hends.told_ok hm
  cases task with
  | call k c =>
    rcases Request.serve_bind_cases h with ⟨_, _, he⟩ | ⟨reply, u, hr, hrest⟩
    · cases he
    · cases hrest
      exact hcall hs.ready hsound rfl hr hm
  | handle k operation c =>
    rcases Request.serve_bind_cases h with ⟨_, _, he⟩ | ⟨reply, u, hr, hrest⟩
    · cases he
    · cases hrest
      rcases Service.handle_cases hr with ⟨_, he, _⟩ | ⟨event, hr⟩
      · cases he
      · have hsound' : (s.note event).Sound := ⟨hsound.disk, hsound.resident⟩
        exact hcall (hs.ready.note event) hsound' rfl hr hm
  | newContext =>
    obtain ⟨outcome, hserve, houtcome⟩ := Request.serve_map_cases h
    obtain ⟨made, hcreate, rfl⟩ := Request.serve_map_cases hserve
    have hspends := createUnbound_spends.spends hs.ready hsound hkeyed hcreate
    cases made with
    | error failure => cases houtcome
    | ok k =>
      cases houtcome
      cases hm
      exact ⟨_, hspends.told_ok, fun _ => rfl⟩
  | resolveContext k name => cases hm
  | contextCount => cases hm
  | sweep => cases hm

/-- What happens on a store: it is there with nothing on it, a service is started on it, or the
service that runs does a task. -/
inductive Event where
  | opened
  | started (result : Except Failure Service)
  | done (task : Task) (answer : Except Failure Answer)

namespace Event

/-- The key of the context that is made, which a start makes only when no root is recorded. -/
def makes (before : Disk) : Event → Option ContextKey
  | started (.ok service) =>
    match before.root? with
    | .ok none => some service.root
    | _ => none
  | done task (.ok answer) => task.makes answer
  | _ => none

/-- The key of a context that is handed out unbound. -/
def handsOut : Event → Option ContextKey
  | done task (.ok answer) => task.handsOut answer
  | _ => none

/-- Whether it may remove records that somebody knows of. -/
def removes : Event → Bool
  | done task _ => task.removes
  | _ => false

end Event

/-- A state of a run, with what has just happened. -/
structure Moment where
  event : Event
  running : Option Service
  server : Server

def Moment.disk (m : Moment) : Disk := m.server.store.disk

/-- What happens on one store, from an empty one on, the latest first. A service may be started
again at any time, with any retention. -/
inductive Run (fails : StoreCall → Nat → Bool) : List Moment → Prop
  | opened (retention : Retention) : Run fails [⟨.opened, none,
      { store := { faults := { fails := fails } }, memory := { retention := retention } }⟩]
  | started {m : Moment} {earlier : List Moment} {t : Server} {result : Except Failure Service}
      (before : Run fails (m :: earlier)) (retention : Retention)
      (start : Service.start.serve (m.server.restart retention) = some (result, t)) :
      Run fails (⟨.started result, result.toOption, t⟩ :: m :: earlier)
  | done {m : Moment} {earlier : List Moment} {service : Service} {t : Server} {task : Task}
      {answer : Except Failure Answer} (before : Run fails (m :: earlier))
      (running : m.running = some service)
      (served : (task.request service).serve m.server = some (answer, t)) :
      Run fails (⟨.done task answer, some service, t⟩ :: m :: earlier)

namespace Run

variable {fails : StoreCall → Nat → Bool} {m now before : Moment} {earlier moments : List Moment}

theorem reached (h : Run fails (m :: earlier)) :
    ∃ history, Reached fails m.running m.server history := by
  generalize hm : m :: earlier = moments at h
  induction h generalizing m earlier with
  | opened retention =>
    cases hm
    exact ⟨[], .empty retention⟩
  | started before retention start ih =>
    cases hm
    obtain ⟨_, hreached⟩ := ih rfl
    exact ⟨[], hreached.start retention start⟩
  | done before running served ih =>
    cases hm
    obtain ⟨history, hreached⟩ := ih rfl
    exact ⟨_, (running ▸ hreached).task served⟩

theorem keyed (h : Run fails (m :: earlier)) : ∃ n, m.disk.Keyed n := by
  obtain ⟨_, hreached⟩ := h.reached
  obtain ⟨n, hkeyed, _⟩ := hreached.keyed
  exact ⟨n, hkeyed⟩

/-- One event after another moves the counter only forward. -/
theorem counts (h : Run fails (now :: earlier)) :
    ∀ past ∈ earlier, past.disk.Counts now.disk := by
  generalize hm : now :: earlier = moments at h
  induction h generalizing now earlier with
  | opened retention =>
    cases hm
    intro past hp
    cases hp
  | started before retention start ih =>
    cases hm
    have hlast := Job.run_counts start
    intro past hp
    rcases List.mem_cons.mp hp with rfl | hp
    · exact hlast
    · exact (ih rfl past hp).trans hlast
  | done before running served ih =>
    cases hm
    have hlast := Job.run_counts served
    intro past hp
    rcases List.mem_cons.mp hp with rfl | hp
    · exact hlast
    · exact (ih rfl past hp).trans hlast

theorem ordered (h : Run fails moments) :
    moments.Pairwise fun later earlier => earlier.disk.Counts later.disk := by
  induction h with
  | opened retention => exact List.pairwise_singleton _ _
  | started before retention start ih =>
    exact List.pairwise_cons.mpr ⟨(before.started retention start).counts, ih⟩
  | done before running served ih =>
    exact List.pairwise_cons.mpr ⟨(before.done running served).counts, ih⟩

/-- A key that is handed out has the number that the counter had before. -/
theorem makes (h : Run fails (now :: before :: earlier))
    (hm : now.event.makes before.disk = some key) :
    ∃ n, before.disk.Keyed n ∧ key = .ofIndex n ∧
      (now.event.handsOut = some key → now.disk.load key = .ok (some .empty)) := by
  cases h with
  | started previous retention start =>
    obtain ⟨_, hreached⟩ := previous.reached
    obtain ⟨n, hkeyed, _⟩ := hreached.keyed
    refine ⟨n, hkeyed, ?_, nofun⟩
    cases hreached.start_comes hkeyed start with
    | found recorded _ =>
      have hrecorded : before.disk.root? = _ := recorded
      simp [Event.makes, hrecorded] at hm
    | made unrecorded made _ =>
      have hunrecorded : before.disk.root? = .ok none := unrecorded
      simp only [Event.makes, hunrecorded, Option.some.injEq] at hm
      exact hm ▸ (hkeyed.created made).1
    | failed _ => cases hm
    | lost _ _ => cases hm
    | unfinished _ _ => cases hm
  | done previous running served =>
    rename_i service task answer
    obtain ⟨history, hreached⟩ := previous.reached
    rw [running] at hreached
    obtain ⟨n, hkeyed, _⟩ := hreached.keyed
    have hsettled := hreached.settled
    cases answer with
    | error failure => cases hm
    | ok answer =>
      obtain ⟨d, hmade, hleft⟩ := Task.request_makes hsettled.rest hsettled.sound hkeyed
        (hreached.root_below hkeyed) served hm
      refine ⟨n, hkeyed, (hkeyed.created hmade).1, fun hh => ?_⟩
      have hd : _ = d := hleft hh
      rw [Moment.disk, hd]
      exact Disk.load_created hmade

/-- Links stay whole as long as nothing is destroyed or swept. -/
theorem whole (h : Run fails (now :: earlier))
    (hr : ∀ m ∈ now :: earlier, m.event.removes = false) : now.disk.Whole := by
  generalize hm : now :: earlier = moments at h
  induction h generalizing now earlier with
  | opened retention =>
    cases hm
    exact Disk.whole_empty
  | started previous retention start ih =>
    cases hm
    have hwhole := ih (fun m hm => hr m (List.mem_cons_of_mem _ hm)) rfl
    obtain ⟨_, hreached⟩ := previous.reached
    obtain ⟨n, hkeyed, _⟩ := hreached.keyed
    cases hreached.start_comes hkeyed start with
    | found _ same => exact hwhole.congr (congrArg Disk.contexts same)
    | made _ made recorded =>
      rename_i service d _
      have hset : (d.setRoot service.root).Whole :=
        ((Disk.Change.made made).whole hwhole).congr rfl
      rw [← recorded] at hset
      exact hset
    | failed same => exact hwhole.congr (congrArg Disk.contexts same)
    | lost _ handed => exact (Disk.Change.handed handed).whole hwhole
    | unfinished _ made => exact (Disk.Change.made made).whole hwhole
  | done previous running served ih =>
    cases hm
    have hwhole := ih (fun m hm => hr m (List.mem_cons_of_mem _ hm)) rfl
    obtain ⟨history, hreached⟩ := previous.reached
    rw [running] at hreached
    obtain ⟨n, hkeyed, _⟩ := hreached.keyed
    have hsettled := hreached.settled
    have hchanges := Task.request_changes hsettled.rest hsettled.sound hkeyed
      (hreached.root_below hkeyed) served
    have hkeeps : _ = false := hr _ List.mem_cons_self
    rw [show Task.removes _ = false from hkeeps] at hchanges
    exact hchanges.whole hwhole

/-- A run is a run up to each of its moments. -/
theorem upTo (later : List Moment) (h : Run fails (later ++ m :: earlier)) :
    Run fails (m :: earlier) := by
  induction later with
  | nil => exact h
  | cons last later ih =>
    refine ih ?_
    obtain ⟨next, rest, hrest⟩ : ∃ next rest, later ++ m :: earlier = next :: rest := by
      cases later with
      | nil => exact ⟨_, _, rfl⟩
      | cons next later => exact ⟨_, _, rfl⟩
    rw [List.cons_append, hrest] at h
    rw [hrest]
    cases h with
    | started before _ _ => exact before
    | done before _ _ => exact before

/-- Keys are never used twice, and no link breaks that nobody cuts, whatever fails and however
often the service is started again. -/
theorem integrity (h : Run fails moments) :
    (∀ m ∈ moments, ∃ n, m.disk.highWaterMark = .ok n ∧
      (∃ keys, m.disk.keys = .ok keys ∧ ∀ key ∈ keys, key.Below n ∧
        ∃ bindings, m.disk.load key = .ok (some bindings) ∧
          ∀ other ∈ bindings.contexts, other.Below n) ∧
      ∃ root, m.disk.root? = .ok root ∧ ∀ key, root = some key → key.Below n) ∧
    moments.Pairwise (fun later earlier => earlier.disk.Counts later.disk) ∧
    (∀ later now before earlier key, moments = later ++ now :: before :: earlier →
      now.event.makes before.disk = some key →
      (∀ past ∈ before :: earlier, past.disk.contains key = false ∧
        ∀ other, key ∉ past.disk.links other) ∧
      (now.event.handsOut = some key → now.disk.load key = .ok (some .empty))) ∧
    ((∀ m ∈ moments, m.event.removes = false) → ∀ m ∈ moments, ∀ key bindings,
      m.disk.load key = .ok (some bindings) →
      ∀ other ∈ bindings.contexts, m.disk.contains other = true) := by
  have hpart : ∀ m ∈ moments, ∃ later earlier, moments = later ++ m :: earlier ∧
      Run fails (m :: earlier) := by
    intro m hm
    obtain ⟨later, earlier, he⟩ := List.append_of_mem hm
    exact ⟨later, earlier, he, upTo later (he ▸ h)⟩
  refine ⟨fun m hm => ?_, h.ordered, ?_, fun hr m hm key bindings hload other ho => ?_⟩
  · obtain ⟨_, earlier, _, hrun⟩ := hpart m hm
    obtain ⟨_, hreached⟩ := hrun.reached
    obtain ⟨n, hkeyed⟩ := hrun.keyed
    have hsound := hreached.settled.sound.disk
    obtain ⟨keys, hkeys, _⟩ := hsound.keys
    refine ⟨n, hkeyed.counter, ⟨keys, hkeys, fun key hk => ?_⟩, hkeyed.root⟩
    have hstored := (hsound.mem_keys hkeys).mp hk
    obtain ⟨bindings, hload⟩ := hsound.load_contained hstored
    refine ⟨hkeyed.records key hstored, bindings, hload, fun other ho => ?_⟩
    rw [← Disk.links_of_load hload] at ho
    exact hkeyed.links key other ho
  · rintro later now before earlier key rfl hmakes
    have hrun := upTo later h
    obtain ⟨n, hkeyed, rfl, hempty⟩ := hrun.makes hmakes
    refine ⟨fun past hp => ?_, hempty⟩
    obtain ⟨_, _, _, hpast⟩ := hpart past
      (List.mem_append_right later (List.mem_cons_of_mem now hp))
    obtain ⟨k, hk⟩ := hpast.keyed
    -- the counter has not gone back since then, so this number was still to come
    have hle : k ≤ n := by
      rcases List.mem_cons.mp hp with rfl | hp
      · exact Nat.le_of_eq (Except.ok.inj (hk.counter.symm.trans hkeyed.counter))
      · have hcounts := (upTo [now] hrun).counts past hp
        obtain ⟨m, hle, hm⟩ := hcounts k hk.counter
        have hmn : m = n := Except.ok.inj (hm.symm.trans hkeyed.counter)
        exact hmn ▸ hle
    exact hk.unused hle
  · obtain ⟨later, earlier, rfl, hrun⟩ := hpart m hm
    have hwhole := hrun.whole fun m hm => hr m (List.mem_append_right later hm)
    rw [← Disk.links_of_load hload] at ho
    exact hwhole key other ho

/-- What happens next on a store: a service is started on it, or the service that runs does a
task. -/
inductive Move where
  | start (retention : Retention)
  | task (task : Task)

/-- Takes down what comes of a move. -/
def Move.next (m : Moment) : Move → Option Moment
  | start retention =>
    (Service.start.serve (m.server.restart retention)).map fun (result, t) =>
      ⟨.started result, result.toOption, t⟩
  | task work => m.running.bind fun service =>
    ((work.request service).serve m.server).map fun (answer, t) =>
      ⟨.done work answer, some service, t⟩

/-- Makes moves one after the other and takes down all that happens, the latest first. -/
def replay : List Move → Moment → List Moment → Option (Moment × List Moment)
  | [], m, earlier => some (m, earlier)
  | move :: rest, m, earlier => (move.next m).bind fun next => replay rest next (m :: earlier)

theorem of_replay {moves : List Move} (h : Run fails (m :: earlier)) {latest : List Moment}
    (hr : replay moves m earlier = some (now, latest)) : Run fails (now :: latest) := by
  induction moves generalizing m earlier with
  | nil =>
    cases hr
    exact h
  | cons move rest ih =>
    obtain ⟨next, hnext, hrest⟩ := Option.bind_eq_some_iff.mp hr
    refine ih ?_ hrest
    cases move with
    | start retention =>
      obtain ⟨⟨result, t⟩, hstart, he⟩ := Option.map_eq_some_iff.mp hnext
      cases he
      exact h.started retention hstart
    | task work =>
      obtain ⟨service, hservice, hdone⟩ := Option.bind_eq_some_iff.mp hnext
      obtain ⟨⟨answer, t⟩, hserved, he⟩ := Option.map_eq_some_iff.mp hdone
      cases he
      exact h.done hservice hserved

/-- An empty store on which a root cannot be recorded at the first attempt. -/
def unrecorded : Server :=
  { store := { faults := { fails := fun call made => decide (call = .setRoot) && made == 0 } }
    memory := {} }

/-- A service is started twice, as the first root is not recorded. Then a context is made, and
another one is bound in it. -/
def restarted : List Move :=
  [.start .none, .start (.cache 1), .task .newContext,
    .task (.call ⟨"NC2"⟩ (.bindNewContext (.single ⟨.ofId "b", rfl⟩)))]

theorem integrity_restarted : ∃ now before earlier,
    replay restarted ⟨.opened, none, unrecorded⟩ [] = some (now, before :: earlier) ∧
      now.event.makes before.disk = some ⟨"NC3"⟩ ∧
      (∀ past ∈ before :: earlier, past.disk.contains ⟨"NC3"⟩ = false) ∧
      ∀ key bindings, now.disk.load key = .ok (some bindings) →
        ∀ other ∈ bindings.contexts, now.disk.contains other = true := by
  have hrun : (replay restarted ⟨.opened, none, unrecorded⟩ []).any (fun p =>
      match p.2 with
      | [] => false
      | before :: earlier => p.1.event.makes before.disk == some ⟨"NC3"⟩ &&
        (p.1 :: before :: earlier).all fun m => !m.event.removes) = true := by
    decide +kernel
  obtain ⟨⟨now, latest⟩, hreplay, hmade⟩ := (Option.any_eq_true _ _).mp hrun
  cases latest with
  | nil => cases hmade
  | cons before earlier =>
    obtain ⟨hmakes, hkeeps⟩ := Bool.and_eq_true_iff.mp hmade
    have hmakes := beq_iff_eq.mp hmakes
    obtain ⟨_, _, hfresh, hwhole⟩ := integrity (of_replay (.opened .none) hreplay)
    refine ⟨now, before, earlier, hreplay, hmakes, fun past hp => ?_, ?_⟩
    · exact ((hfresh [] now before earlier _ rfl hmakes).1 past hp).1
    · refine hwhole (fun m hm => ?_) now List.mem_cons_self
      have hm := List.all_eq_true.mp hkeeps m hm
      rwa [Bool.not_eq_true'] at hm

end Run

end Naming
