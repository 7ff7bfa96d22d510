import Mathlib.Logic.Relation
import Naming.Listing.Frame
import Naming.Proofs.RootKept
import Naming.Proofs.Creations
import Naming.Proofs.Garbage

namespace Naming

variable {root key : ContextKey} {n : Nat} {d e : Disk}

/-- A store tells whether there is a record, unless it refuses to. -/
theorem Store.contains_cases (s : Store) (key : ContextKey) :
    (∃ u, s.contains key = (.error refusal, u) ∧ ¬ s.Spares .contains) ∨
      ∃ u, s.contains key = (.ok (s.disk.contains key), u) := by
  by_cases hfails : s.faults.fails .contains (s.faults.made.get .contains) = true
  · refine .inl ⟨_, if_pos hfails, fun hspares => ?_⟩
    rw [hspares] at hfails
    cases hfails
  · exact .inr ⟨_, if_neg hfails⟩

/-- Where the root is recorded and has its record, a start finds it or is refused by the store. -/
theorem Service.start_recorded {s : Server} (hroot : s.store.disk.root? = .ok (some root))
    (hstored : s.store.disk.contains root = true) :
    ∃ result t, start.serve s = some (result, t) ∧ t.store.disk = s.store.disk ∧
      t.memory = s.memory ∧ t.store.faults.fails = s.store.faults.fails ∧
      (result = .ok ⟨root⟩ ∨
        result = .error (.storage Store.refusal) ∧ ¬ s.store.Spares .contains) := by
  have hdisk := s.store.contains_disk root
  have hfails := s.store.call_fails .contains fun d => .ok (d.contains root, d)
  unfold start
  rw [Request.serve_bind, serve_root, hroot]
  have hasked : (Request.ofStorage (Job.act (.contains root))).serve s =
      some ((s.store.contains root).1.mapError .ofStorage,
        { s with store := (s.store.contains root).2 }) :=
    Request.serve_ofStorage _ _
  change ∃ result t, (Request.ofStorage (Job.act (.contains root)) >>= _).serve s = _ ∧ _
  rw [Request.serve_bind, hasked]
  rcases s.store.contains_cases root with ⟨u, hc, hrefused⟩ | ⟨u, hc⟩
  · rw [hc] at hdisk ⊢
    exact ⟨_, _, rfl, hdisk, rfl, (congrArg (·.2.faults.fails) hc).symm.trans hfails,
      .inr ⟨rfl, hrefused⟩⟩
  · rw [hc, hstored] at hdisk ⊢
    exact ⟨_, _, rfl, hdisk, rfl, (congrArg (·.2.faults.fails) hc).symm.trans hfails, .inl rfl⟩

/-- A server that has just come up on a disk, with a store that refuses calls as told. -/
def Disk.newServer (d : Disk) (retention : Retention) (faults : Faults) : Server :=
  { store := ⟨d, faults⟩, memory := { retention := retention } }

/-- A service that was started and may still be at work, with its own memory. -/
structure Running where
  service : Service
  memory : Memory

/-- One disk with all services that were started on it. -/
structure Site where
  disk : Disk := {}
  running : List Running := []

/-- What a service is given to do: a task of a client or a command of the user. -/
inductive Work where
  | task (given : Task)
  | command (given : Command)

/-- A piece of work takes a server from one state to another, whatever it answers. -/
def Work.Takes [Drawing] (service : Service) (work : Work) (s t : Server) : Prop :=
  match work with
  | .task given => ∃ answer, (given.request service).serve s = some (answer, t)
  | .command given => ∃ answer, (service.execute given).serve s = some (answer, t)

namespace Site

/-- The server that a running service works on. -/
def server (site : Site) (faults : Faults) (r : Running) : Server :=
  { store := ⟨site.disk, faults⟩, memory := r.memory }

/-- The site once a service has been started, or has failed to. -/
def started (site : Site) (result : Except Failure Service) (t : Server) : Site :=
  { disk := t.store.disk
    running := match result with
      | .ok service => ⟨service, t.memory⟩ :: site.running
      | .error _ => site.running }

/-- What happens on a site: somebody starts a service, or a running service does some work. The
store refuses calls by a new schedule each time. -/
inductive Next [Drawing] (site : Site) : Site → Prop
  | start {result : Except Failure Service} {t : Server} (retention : Retention) (faults : Faults)
      (serves : Service.start.serve (site.disk.newServer retention faults) = some (result, t)) :
      Next site (site.started result t)
  | work {before after : List Running} {r : Running} {t : Server} (faults : Faults) (work : Work)
      (split : site.running = before ++ r :: after)
      (takes : work.Takes r.service (site.server faults r) t) :
      Next site ⟨t.store.disk, before ++ ⟨r.service, t.memory⟩ :: after⟩

/-- One thing after another, or nothing. -/
abbrev Later [Drawing] : Site → Site → Prop := Relation.ReflTransGen Next

/-- The root is recorded, and all services have it. None is in the middle of anything, but what one
keeps in memory need not be what the records hold, as others write them. -/
structure Rooted (root : ContextKey) (n : Nat) (site : Site) : Prop where
  disk : site.disk.Rooted root n
  same : ∀ r ∈ site.running, r.service.root = root
  memory : ∀ r ∈ site.running, r.memory.Regular n
  rest : ∀ r ∈ site.running, r.memory.locks.Idle ∧ r.memory.gate = {}

/-- No root is recorded, so that no service runs, and all records are left from starts that
failed. -/
structure Bare (n : Nat) (site : Site) : Prop where
  vacant : site.running = []
  sound : site.disk.Sound
  unrecorded : site.disk.root? = .ok none
  keyed : ∃ m, n ≤ m ∧ site.disk.Keyed m
  linkless : ∀ key, site.disk.links key = []

theorem bare_empty : Bare 0 {} :=
  ⟨rfl, Disk.sound_empty, rfl, ⟨0, Nat.le_refl 0, Disk.keyed_empty⟩, fun _ => rfl⟩

variable {site site' : Site}

theorem Rooted.server (h : site.Rooted root n) {r : Running} (hr : r ∈ site.running)
    (faults : Faults) : (site.server faults r).Rooted root n ∧ (site.server faults r).AtRest :=
  ⟨⟨h.disk, h.memory r hr⟩, (h.rest r hr).1, (h.rest r hr).2⟩

/-- Work keeps the root, and ends. -/
theorem works [Drawing] {service : Service} {work : Work} {s t : Server}
    (hs : s.Rooted service.root n) (hrest : s.AtRest) (h : work.Takes service s t) :
    t.Rooted service.root n ∧ t.AtRest := by
  cases work with
  | task given =>
    obtain ⟨answer, hserve⟩ := h
    obtain ⟨_, _, hserve', ht, _⟩ := given.serves service hrest
    cases hserve.symm.trans hserve'
    exact ⟨(Job.Abides.run (given.request_abides service) hs hserve).2, ht⟩
  | command given =>
    obtain ⟨answer, hserve⟩ := h
    obtain ⟨_, _, hserve', ht⟩ := service.execute_serves given hrest
    cases hserve.symm.trans hserve'
    exact ⟨(Job.Abides.run (service.execute_abides given) hs hserve).2, ht⟩

/-- Where a root is recorded, every start finds it or fails for the store, and changes nothing. -/
theorem Rooted.starts (h : site.Rooted root n) (retention : Retention) (faults : Faults) :
    ∃ result t, Service.start.serve (site.disk.newServer retention faults) = some (result, t) ∧
      t.store.disk = site.disk ∧ t.memory = { retention := retention } ∧
      (result = .ok ⟨root⟩ ∨ ∃ cause, result = .error (.storage cause)) := by
  obtain ⟨result, t, hserve, hdisk, hmemory, _, hresult⟩ := Service.start_recorded
    (s := site.disk.newServer retention faults) h.disk.recorded h.disk.stored
  exact ⟨result, t, hserve, hdisk, hmemory, hresult.imp_right fun hfailed => ⟨_, hfailed.1⟩⟩

theorem Rooted.next [Drawing] (h : site.Rooted root n) (hn : Next site site') :
    site'.Rooted root n := by
  cases hn with
  | start retention faults serves =>
    obtain ⟨_, _, hserve, hdisk, hmemory, hresult⟩ := h.starts retention faults
    cases serves.symm.trans hserve
    have hrooted := hdisk.symm ▸ h.disk
    rcases hresult with rfl | ⟨cause, rfl⟩
    · refine ⟨hrooted, ?_, ?_, ?_⟩
      all_goals
        intro r hr
        rcases List.mem_cons.mp hr with rfl | hr
      · rfl
      · exact h.same r hr
      · rw [hmemory]
        exact ⟨nofun, nofun⟩
      · exact h.memory r hr
      · rw [hmemory]
        exact ⟨rfl, rfl⟩
      · exact h.rest r hr
    · exact ⟨hrooted, h.same, h.memory, h.rest⟩
  | work faults work split takes =>
    rename_i before after r t
    have hr : r ∈ site.running := by simp [split]
    have hsame := h.same r hr
    obtain ⟨hserver, hrest⟩ := h.server hr faults
    obtain ⟨ht, hafter⟩ := works (hsame.symm ▸ hserver) hrest takes
    rw [hsame] at ht
    -- whoever else runs has neither moved nor changed its memory
    have hothers : ∀ q ∈ before ++ ⟨r.service, t.memory⟩ :: after,
        q ∈ site.running ∨ q = ⟨r.service, t.memory⟩ := by
      intro q hq
      rw [split]
      simp only [List.mem_append, List.mem_cons] at hq ⊢
      tauto
    refine ⟨ht.disk, fun q hq => ?_, fun q hq => ?_, fun q hq => ?_⟩
    · rcases hothers q hq with hq | rfl
      · exact h.same q hq
      · exact hsame
    · rcases hothers q hq with hq | rfl
      · exact h.memory q hq
      · exact ht.memory
    · rcases hothers q hq with hq | rfl
      · exact h.rest q hq
      · exact ⟨hafter.idle, hafter.free⟩

theorem Rooted.later [Drawing] (h : site.Rooted root n) (hl : Later site site') :
    site'.Rooted root n := by
  induction hl with
  | refl => exact h
  | tail _ last ih => exact ih.next last

/-- A server that comes up where no root is recorded is ready to make one. -/
theorem Bare.newServer (h : site.Bare n) (retention : Retention) (faults : Faults) :
    (site.disk.newServer retention faults).Ready ∧ (site.disk.newServer retention faults).Sound :=
  ⟨⟨rfl, rfl⟩, h.sound, nofun⟩

/-- A start that is refused nothing succeeds, unless no root is recorded and no number is left. -/
theorem Bare.starts (h : site.Bare n) (retention : Retention) :
    ∃ result t, Service.start.serve (site.disk.newServer retention {}) = some (result, t) ∧
      ((∃ service, result = .ok service) ∨ site.disk.allocate = .error .exhausted) := by
  obtain ⟨hready, hsound⟩ := h.newServer retention {}
  obtain ⟨m, _, hkeyed⟩ := h.keyed
  obtain ⟨result, t, hserve, _⟩ := Service.start_orderly.serves hready.idle fun _ => hready.opened
  have hmakes := hserve
  unfold Service.start at hmakes
  have hroot : (site.disk.newServer retention {}).store.disk.root? = .ok none := h.unrecorded
  rw [Request.serve_bind, Service.serve_root, hroot] at hmakes
  refine ⟨result, t, hserve, ?_⟩
  rcases Request.serve_make_cases hready hsound hkeyed hmakes with
    ⟨failure, rfl, hspends⟩ | ⟨key, u, _, hu, husound, hrest⟩
  · right
    have hfailed : site.disk.create = .error failure := hspends.exact rfl
    have hallocate := Disk.allocate_eq hkeyed.counter
    split at hallocate
    · obtain ⟨e, _, hcreate⟩ := hkeyed.furnish hallocate
      rw [hfailed] at hcreate
      cases hcreate
    · exact hallocate
  · left
    have hwilling : u.store.Willing := (Job.run_fails hrest).symm.trans (Job.run_fails hserve)
    rcases Request.serve_bind_cases hrest with ⟨failure, hset, rfl⟩ | ⟨_, v, _, hlast⟩
    · have htold := ((Service.performs_setRoot key).comes hu husound hset).exact hwilling
      cases htold
    · cases hlast
      exact ⟨_, rfl⟩

/-- A start that made and recorded a root leaves it recorded, with its record. -/
theorem Bare.rooted (h : site.Bare n) {retention : Retention} {faults : Faults}
    {service : Service} {t : Server}
    (hserve : Service.start.serve (site.disk.newServer retention faults) = some (.ok service, t))
    (hmade : site.disk.create = .ok (service.root, d))
    (hrecorded : t.store.disk = d.setRoot service.root) :
    (site.started (.ok service) t).Rooted service.root n := by
  obtain ⟨hready, hsound⟩ := h.newServer retention faults
  obtain ⟨m, hle, hkeyed⟩ := h.keyed
  have hkept := Service.start_orderly.kept hready.idle (fun _ => hready.opened) hserve
  have hunbound := Service.start_orderly.quiet hready hserve
  have ht := hkept.sound hsound
  have hstored : t.store.disk.contains service.root = true := by
    rw [hrecorded]
    change d.contains service.root = true
    exact Disk.contains_of_load (Disk.load_created hmade)
  have hcounter : t.store.disk.highWaterMark = .ok (m + 1) := by
    rw [hrecorded, Disk.highWaterMark_setRoot]
    exact (hkeyed.created hmade).2.counter
  refine ⟨⟨ht.disk, ?_, hstored, m + 1, by omega, hcounter⟩, ?_, ?_, ?_⟩
  · simp only [started, hrecorded]
    exact d.root_setRoot _
  all_goals
    intro r hr
    rw [started, h.vacant, List.mem_singleton] at hr
    cases hr
  · rfl
  · refine ⟨fun key bindings hk => ht.disk.regular (ht.resident key bindings hk), ?_⟩
    dsimp only
    rw [hunbound]
    exact nofun
  · exact ⟨hkept.locks, hkept.gate⟩

/-- Where no root is recorded, a start leaves it so or records the root that it has made. -/
theorem Bare.start (h : site.Bare n) {retention : Retention} {faults : Faults}
    {result : Except Failure Service} {t : Server}
    (hserve : Service.start.serve (site.disk.newServer retention faults) = some (result, t)) :
    (∃ failure, result = .error failure ∧ (site.started result t).Bare n) ∨
      ∃ service, result = .ok service ∧ (site.started result t).Rooted service.root n := by
  obtain ⟨hready, hsound⟩ := h.newServer retention faults
  obtain ⟨m, hle, hkeyed⟩ := h.keyed
  have hcontexts : ∀ {key : ContextKey} {e : Disk}, site.disk.allocate = .ok (key, e) →
      e.contexts = site.disk.contexts ∧ e.Keyed (m + 1) :=
    fun he => (hkeyed.allocated he).2
  cases Service.start_comes hready hsound hkeyed hserve with
  | found recorded same =>
    have hnone : site.disk.root? = .ok (some _) := recorded
    rw [h.unrecorded] at hnone
    cases hnone
  | made unrecorded made recorded =>
    exact .inr ⟨_, rfl, h.rooted hserve made recorded⟩
  | failed same =>
    have hsame : t.store.disk = site.disk := same
    refine .inl ⟨_, rfl, h.vacant, ?_, ?_, ?_, ?_⟩
    all_goals simp only [started, hsame]
    · exact h.sound
    · exact h.unrecorded
    · exact h.keyed
    · exact h.linkless
  | lost unrecorded handed =>
    obtain ⟨hsame, hnext⟩ := hcontexts handed
    refine .inl ⟨_, rfl, h.vacant, h.sound.congr hsame, ?_, ⟨m + 1, by omega, hnext⟩, fun key => ?_⟩
    · exact (Disk.allocate_root handed).trans h.unrecorded
    · exact (Disk.links_congr (by rw [started, hsame])).trans (h.linkless key)
  | unfinished unrecorded made =>
    obtain ⟨d, hallocate, hput⟩ := Disk.create_ok made
    obtain ⟨hsame, hnext⟩ := hcontexts hallocate
    have hsound := h.sound.congr hsame
    refine .inl ⟨_, rfl, h.vacant, hsound.save BindingSet.regular_empty (Disk.put_ok hput), ?_,
      ⟨m + 1, by omega, (hkeyed.created made).2⟩, fun key => ?_⟩
    · exact (Disk.root?_congr (Disk.marks_save (Disk.put_ok hput))).trans
        ((Disk.allocate_root hallocate).trans h.unrecorded)
    · have hlinks := Disk.links_put hput key
      have hbefore : d.links key = site.disk.links key := Disk.links_congr (by rw [hsame])
      rw [hbefore, h.linkless, BindingSet.contexts_empty, ite_self] at hlinks
      exact hlinks

/-- Whatever happens on a site, a root is recorded and has its record, or nothing is there but what
failed starts have left. -/
theorem later_cases [Drawing] (h : site.Bare n) (hl : Later site site') :
    site'.Bare n ∨ ∃ root, site'.Rooted root n := by
  induction hl with
  | refl => exact .inl h
  | tail _ last ih =>
    rcases ih with hbare | ⟨root, hrooted⟩
    · cases last with
      | start retention faults serves =>
        rcases hbare.start serves with ⟨failure, _, hbare⟩ | ⟨service, _, hrooted⟩
        · exact .inl hbare
        · exact .inr ⟨_, hrooted⟩
      | work faults work split takes =>
        rw [hbare.vacant] at split
        exact absurd split.symm (by simp)
    · exact .inr ⟨root, hrooted.next last⟩

end Site

/-- The second disk has one record more than the first: an empty one under a key that had none, and
no record leads to it. -/
structure Disk.Strays (key : ContextKey) (d e : Disk) : Prop where
  fresh : d.contains key = false
  empty : e.load key = .ok (some .empty)
  others : ∀ place, place ≠ Disk.place key → e.contexts.get? place = d.contexts.get? place
  unreferenced : ∀ other, key ∉ e.links other

namespace Site

variable {site site' : Site}

/-- A start that fails and records no root leaves no record, or a single one astray. -/
theorem Bare.strays (h : site.Bare n) {retention : Retention} {faults : Faults} {failure : Failure}
    {t : Server} (hserve : Service.start.serve (site.disk.newServer retention faults) =
      some (.error failure, t)) :
    t.store.disk.contexts = site.disk.contexts ∨ ∃ key m, site.disk.Strays key t.store.disk ∧
      key.Below m ∧ (site.started (.error failure) t).Bare m := by
  obtain ⟨hready, hsound⟩ := h.newServer retention faults
  obtain ⟨m, hle, hkeyed⟩ := h.keyed
  have hbare : (site.started (.error failure) t).Bare n := by
    rcases h.start hserve with ⟨_, _, hbare⟩ | ⟨_, hok, _⟩
    · exact hbare
    · cases hok
  cases Service.start_comes hready hsound hkeyed hserve with
  | failed same => exact .inl (congrArg Disk.contexts same)
  | lost unrecorded handed => exact .inl (hkeyed.allocated handed).2.1
  | unfinished unrecorded made =>
    rename_i key
    right
    obtain ⟨d, hallocate, hput⟩ := Disk.create_ok made
    obtain ⟨hkey, hnext⟩ := hkeyed.created made
    refine ⟨key, m + 1, ⟨?_, Disk.load_created made, fun place hplace => ?_, fun other => ?_⟩,
      hkey ▸ ContextKey.below_succ m, hbare.vacant, hbare.sound, hbare.unrecorded,
      ⟨m + 1, Nat.le_refl _, hnext⟩, hbare.linkless⟩
    · rw [hkey]
      exact hkeyed.not_contains
    · rw [Disk.get?_save (Disk.put_ok hput), if_neg hplace, (hkeyed.allocated hallocate).2.1]
    · have hlinks : t.store.disk.links other = [] := hbare.linkless other
      rw [hlinks]
      exact List.not_mem_nil

/-- A sweep that is refused nothing removes what has a number below `n`, if it cannot be reached
from the root, and after it the service can be started again. -/
theorem Rooted.sweeps (h : site.Rooted root n) {r : Running} (hr : r ∈ site.running)
    (hsound : (site.server {} r).Sound) (hkey : key.Below n) :
    ∃ removed u, r.service.sweep.serve (site.server {} r) = some (.ok removed, u) ∧
      (site.disk.Reaches r.service.root key ∨ u.store.disk.contains key = false) ∧
      ∀ retention, ∃ v,
        Service.start.serve (u.store.disk.newServer retention {}) = some (.ok r.service, v) := by
  obtain ⟨hserver, hrest⟩ := h.server hr {}
  obtain ⟨removed, u, hcollects⟩ := r.service.sweep_collects hrest hsound rfl
  have hroot := h.same r hr
  refine ⟨removed, u, hcollects.served, ?_, fun retention => ?_⟩
  · by_cases hreach : site.disk.Reaches r.service.root key
    · exact .inl hreach
    · right
      cases hgone : u.store.disk.contains key with
      | false => rfl
      | true =>
        obtain ⟨hstored, hkept⟩ := (hcollects.contains_iff key).mp hgone
        have hgarbage : key ∈ removed := (hcollects.garbage key).mpr ⟨hstored, hreach,
          fun hunbound => hserver.memory.unbound key hunbound hkey⟩
        exact absurd hgarbage hkept
  · have hrecorded : u.store.disk.root? = .ok (some r.service.root) := by
      rw [Disk.root?_congr hcollects.marks, hroot]
      exact h.disk.recorded
    have hstored : u.store.disk.contains r.service.root = true := by
      rw [Disk.contains_eq, hcollects.kept_reachable .root, ← Disk.contains_eq, hroot]
      exact h.disk.stored
    obtain ⟨result, v, hserve, _, _, _, hresult⟩ := Service.start_recorded
      (s := u.store.disk.newServer retention {}) hrecorded hstored
    rcases hresult with rfl | ⟨_, hrefused⟩
    · exact ⟨v, hserve⟩
    · exact absurd (fun _ => rfl) hrefused

/-- The server of a service that was just started knows no more than the disk holds. -/
theorem started_sound {retention : Retention} {faults : Faults} {service : Service} {t : Server}
    (hsound : site.disk.Sound)
    (hserve : Service.start.serve (site.disk.newServer retention faults) = some (.ok service, t)) :
    t.Sound :=
  (Service.start_orderly.kept (s := site.disk.newServer retention faults) rfl (fun _ => rfl)
    hserve).sound ⟨hsound, nofun⟩

/-- The root is stable: every later start finds the one that is recorded or fails for the store. A
start that fails leaves at most one record astray, and the next sweep removes it. -/
theorem root_stable [Drawing] (h : Later {} site) :
    (∀ root, site.disk.root? = .ok (some root) →
      ∃ bindings, site.disk.load root = .ok (some bindings)) ∧
    (∀ retention faults service t,
      Service.start.serve (site.disk.newServer retention faults) = some (.ok service, t) →
      t.Sound ∧ ∀ site', Later (site.started (.ok service) t) site' → ∀ retention faults,
        ∃ result u, Service.start.serve (site'.disk.newServer retention faults) = some (result, u) ∧
          (result = .ok service ∨ ∃ cause, result = .error (.storage cause))) ∧
    (∀ retention, ∃ result t,
      Service.start.serve (site.disk.newServer retention {}) = some (result, t) ∧
        ((∃ service, result = .ok service) ∨
          site.disk.root? = .ok none ∧ site.disk.allocate = .error .exhausted)) ∧
    ∀ retention faults failure t,
      Service.start.serve (site.disk.newServer retention faults) = some (.error failure, t) →
      t.store.disk.root? = .ok none → t.store.disk.contexts = site.disk.contexts ∨
        ∃ key, site.disk.Strays key t.store.disk ∧
          ∀ site', Later (site.started (.error failure) t) site' → ∀ r ∈ site'.running,
            (site'.server {} r).Sound → ∃ removed u,
              r.service.sweep.serve (site'.server {} r) = some (.ok removed, u) ∧
              (site'.disk.Reaches r.service.root key ∨ u.store.disk.contains key = false) ∧
              ∀ retention, ∃ v, Service.start.serve (u.store.disk.newServer retention {}) =
                some (.ok r.service, v) := by
  rcases later_cases bare_empty h with hbare | ⟨root, hrooted⟩
  · refine ⟨fun root hroot => ?_, fun retention faults service t hserve => ?_, fun retention => ?_,
      fun retention faults failure t hserve _ => ?_⟩
    · rw [hbare.unrecorded] at hroot
      cases hroot
    · refine ⟨started_sound hbare.sound hserve, fun site' hl retention faults => ?_⟩
      rcases hbare.start hserve with ⟨_, hfailed, _⟩ | ⟨service, hok, hrooted⟩
      · cases hfailed
      · cases hok
        obtain ⟨result, u, hagain, _, _, hresult⟩ := (hrooted.later hl).starts retention faults
        exact ⟨result, u, hagain, hresult⟩
    · obtain ⟨result, t, hserve, hresult⟩ := hbare.starts retention
      exact ⟨result, t, hserve, hresult.imp_right fun hspent => ⟨hbare.unrecorded, hspent⟩⟩
    · rcases hbare.strays hserve with hsame | ⟨key, m, hstrays, hbelow, hleft⟩
      · exact .inl hsame
      · refine .inr ⟨key, hstrays, fun site' hl r hr hsound => ?_⟩
        rcases later_cases hleft hl with hnone | ⟨root, hrooted⟩
        · rw [hnone.vacant] at hr
          cases hr
        · exact hrooted.sweeps hr hsound hbelow
  · refine ⟨fun other hother => ?_, fun retention faults service t hserve => ?_,
      fun retention => ?_, fun retention faults failure t hserve hnone => ?_⟩
    · rw [hrooted.disk.recorded] at hother
      cases hother
      exact hrooted.disk.load
    · have hservice : service = ⟨root⟩ := by
        obtain ⟨_, _, hfound, _, _, hresult⟩ := hrooted.starts retention faults
        cases hserve.symm.trans hfound
        rcases hresult with hok | ⟨_, hfailed⟩
        · exact Except.ok.inj hok
        · cases hfailed
      refine ⟨started_sound hrooted.disk.sound hserve, fun site' hl retention faults => ?_⟩
      have hlater := (hrooted.next (.start _ _ hserve)).later hl
      obtain ⟨result, u, hagain, _, _, hresult⟩ := hlater.starts retention faults
      exact ⟨result, u, hagain, hservice ▸ hresult⟩
    · obtain ⟨result, t, hserve, _, _, _, hresult⟩ := Service.start_recorded
        (s := site.disk.newServer retention {}) hrooted.disk.recorded hrooted.disk.stored
      rcases hresult with rfl | ⟨_, hrefused⟩
      · exact ⟨_, t, hserve, .inl ⟨_, rfl⟩⟩
      · exact absurd (fun _ => rfl) hrefused
    · obtain ⟨_, _, hfound, hdisk, _⟩ := hrooted.starts retention faults
      cases hserve.symm.trans hfound
      rw [hdisk, hrooted.disk.recorded] at hnone
      cases hnone

/-- The first start makes a root and cannot record it. The second makes another, whose service
sweeps the first away. -/
theorem root_stable_swept : ∃ t service u removed v,
    Service.start.serve (({} : Disk).newServer .none ⟨fun call _ => decide (call = .setRoot), {}⟩) =
      some (.error (.storage Store.refusal), t) ∧ t.store.disk.contains ⟨"NC0"⟩ = true ∧
    Service.start.serve (t.store.disk.newServer .none {}) = some (.ok service, u) ∧
    service.sweep.serve ((Site.mk u.store.disk []).server {} ⟨service, u.memory⟩) =
      some (.ok removed, v) ∧ v.store.disk.contains ⟨"NC0"⟩ = false := by
  have hrun : (Service.start.serve
      (({} : Disk).newServer .none ⟨fun call _ => decide (call = .setRoot), {}⟩)).any (fun p =>
        decide (p.1 = .error (.storage Store.refusal)) &&
        decide (p.2.store.disk.root? = .ok none) &&
        p.2.store.disk.contexts.keys == [Disk.place ⟨"NC0"⟩] &&
        (Service.start.serve (p.2.store.disk.newServer .none {})).any fun q =>
          decide (q.1 = .ok ⟨⟨"NC1"⟩⟩) && q.2.store.disk.links ⟨"NC1"⟩ == []) = true := by
    decide +kernel
  obtain ⟨⟨result, t⟩, hfails, hrun⟩ := (Option.any_eq_true _ _).mp hrun
  simp only [Bool.and_eq_true, decide_eq_true_eq, beq_iff_eq] at hrun
  obtain ⟨⟨⟨rfl, hnone⟩, hkeys⟩, hrun⟩ := hrun
  obtain ⟨⟨result, u⟩, hstarts, hrun⟩ := (Option.any_eq_true _ _).mp hrun
  simp only [Bool.and_eq_true, decide_eq_true_eq, beq_iff_eq] at hrun
  obtain ⟨rfl, hlinks⟩ := hrun
  obtain ⟨_, _, _, hfailed⟩ := root_stable .refl
  rcases hfailed _ _ _ t hfails hnone with hsame | ⟨key, hstrays, hswept⟩
  · rw [Tree.keys, hsame] at hkeys
    cases hkeys
  · have hstored := Disk.contains_of_load hstrays.empty
    have hplace := Tree.get?_isSome_iff.mp hstored
    rw [hkeys, List.mem_singleton] at hplace
    cases Disk.place_injective hplace
    obtain ⟨_, hfound, _⟩ := root_stable (.single (.start _ _ hfails))
    obtain ⟨hsound, _⟩ := hfound .none {} _ u hstarts
    obtain ⟨removed, v, hserve, hgone, _⟩ := hswept _ (.single (.start .none {} hstarts)) _
      List.mem_cons_self ⟨hsound.disk, hsound.resident⟩
    have hroot : ∀ k, u.store.disk.Reaches ⟨"NC1"⟩ k → k = ⟨"NC1"⟩ := by
      intro k hreach
      induction hreach with
      | root => rfl
      | step _ link ih =>
        rw [ih, hlinks] at link
        cases link
    refine ⟨t, _, u, removed, v, hfails, hstored, hstarts, hserve, hgone.resolve_left ?_⟩
    intro hreach
    exact absurd (hroot _ hreach) (by decide)

end Site

end Naming
