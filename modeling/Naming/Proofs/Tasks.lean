import Naming.Proofs.Sweeps

namespace Naming

/-- What a client can ask of a running service and of the contexts that it knows the keys of. -/
inductive Task where
  | call (key : ContextKey) (call : Call)
  | resolveContext (key : ContextKey) (name : Name)
  | newContext
  | contextCount
  | sweep
  | handle (key operation : String) (call : Call)

inductive Answer where
  | reply (reply : Reply)
  | context (key : ContextKey)
  | count (contexts : Nat)
  | swept (keys : List ContextKey)
deriving DecidableEq

def Task.request (service : Service) : Task → Request Answer
  | call key c => return .reply (← c.run (service.context key))
  | resolveContext key name => return .context (← (service.context key).resolveContext name).key
  | newContext => return .context (← service.newContext).key
  | contextCount => return .count (← Service.contextCount)
  | sweep => return .swept (← service.sweep)
  | handle key operation c => return .reply (← service.handle key operation c)

/-- The server at rest: no lock is held and nobody is inside the gate. -/
structure Server.AtRest (s : Server) : Prop where
  idle : s.memory.locks.Idle
  free : s.Free

theorem Server.AtRest.opened {s : Server} (h : s.AtRest) : s.memory.gate.closed = false := by
  have hfree : s.memory.gate = {} := h.free
  rw [hfree]

namespace Task

variable {service : Service} {s t : Server}

theorem request_orderly (service : Service) (task : Task) (h : task ≠ .sweep) :
    Orderly true true (task.request service) := by
  cases task with
  | call key c => exact .bind (c.run_orderly _) fun _ => .pure _
  | resolveContext key name =>
    exact .bind ((service.context key).resolveContext_orderly name) fun _ => .pure _
  | newContext => exact .bind service.newContext_orderly fun _ => .pure _
  | contextCount => exact .bind Service.contextCount_orderly fun _ => .pure _
  | sweep => exact absurd rfl h
  | handle key operation c =>
    exact .bind (service.handle_orderly key operation c) fun _ => .pure _

/-- Every task that has the server for itself ends and leaves it at rest, whatever calls of the
store fail. A sound server stays sound. -/
theorem serves (task : Task) (service : Service) (h : s.AtRest) :
    ∃ result t, (task.request service).serve s = some (result, t) ∧ t.AtRest ∧
      (s.Sound → t.Sound) := by
  by_cases hsweep : task = .sweep
  · subst hsweep
    obtain ⟨result, t, hserve, hk, _⟩ := service.sweep_serves h.idle h.free
    refine ⟨result.map .swept, t, ?_, ⟨hk.locks, hk.gate.trans h.free⟩, hk.sound⟩
    simp only [request, Request.serve_bind, hserve]
    cases result <;> rfl
  · obtain ⟨result, t, hserve, hk, _⟩ :=
      (request_orderly service task hsweep).serves h.idle fun _ => h.opened
    exact ⟨result, t, hserve, ⟨hk.locks, hk.gate.trans h.free⟩, hk.sound⟩

/-- Twins answer every task the same. -/
theorem twins (task : Task) (service : Service) (h : s.Twins t) (hs : s.AtRest) :
    ∃ result s' t', (task.request service).serve s = some (result, s') ∧
      (task.request service).serve t = some (result, t') ∧ s'.Twins t' ∧ s'.AtRest := by
  by_cases hsweep : task = .sweep
  · subst hsweep
    obtain ⟨result, s', t', hs', ht', htwins, hfree⟩ := service.sweep_twins h hs.free
    refine ⟨result.map .swept, s', t', ?_, ?_, htwins, ⟨htwins.idle, hfree⟩⟩
    · simp only [request, Request.serve_bind, hs']
      cases result <;> rfl
    · simp only [request, Request.serve_bind, ht']
      cases result <;> rfl
  · obtain ⟨result, s', t', hs', ht', htwins, hgate⟩ :=
      (request_orderly service task hsweep).twins h fun _ => hs.opened
    exact ⟨result, s', t', hs', ht', htwins, ⟨htwins.idle, hgate.trans hs.free⟩⟩

end Task

/-- What a task answered and how the disk was afterwards: its records and its marks. -/
structure Transcript.Entry where
  answer : Except Failure Answer
  disk : Disk

/-- Works through tasks one after the other and takes down what comes of each. -/
def Service.work (service : Service) : List Task → Server → Option (List Transcript.Entry)
  | [], _ => some []
  | task :: rest, s =>
    match (task.request service).serve s with
    | none => none
    | some (answer, t) => (service.work rest t).map (⟨answer, t.store.disk⟩ :: ·)

/-- What comes of a service that is started on an empty store: the outcome of the start, the disk
then, and an entry for each task. -/
structure Transcript where
  started : Except Failure Service
  disk : Disk
  entries : List Transcript.Entry

/-- Starts a service on an empty store that refuses some calls, and works through tasks. -/
def Service.transcript (retention : Retention) (fails : StoreCall → Nat → Bool)
    (tasks : List Task) : Option Transcript :=
  match Service.start.serve
      { store := { faults := { fails := fails } }, memory := { retention := retention } } with
  | none => none
  | some (.error failure, s) => some ⟨.error failure, s.store.disk, []⟩
  | some (.ok service, s) =>
    (service.work tasks s).map fun entries => ⟨.ok service, s.store.disk, entries⟩

namespace Service

theorem work_twins (service : Service) (tasks : List Task) {s t : Server} (h : s.Twins t)
    (hs : s.AtRest) : ∃ entries, service.work tasks s = some entries ∧
      service.work tasks t = some entries := by
  induction tasks generalizing s t with
  | nil => exact ⟨[], rfl, rfl⟩
  | cons task rest ih =>
    obtain ⟨result, s', t', hs', ht', htwins, hrest⟩ := task.twins service h hs
    obtain ⟨entries, hl, hr⟩ := ih htwins hrest
    refine ⟨⟨result, s'.store.disk⟩ :: entries, ?_, ?_⟩
    · simp only [work, hs', hl, Option.map_some]
    · simp only [work, ht', hr, Option.map_some, htwins.alike.store.disk]

theorem empty_twins (retention other : Retention) (fails : StoreCall → Nat → Bool)
    (hl : ∀ n, fails .load n = false) :
    Server.Twins { store := { faults := { fails := fails } }, memory := { retention := retention } }
      { store := { faults := { fails := fails } }, memory := { retention := other } } :=
  ⟨⟨.refl _, rfl, rfl, rfl⟩, rfl, ⟨Disk.sound_empty, nofun⟩, ⟨Disk.sound_empty, nofun⟩, hl⟩

/-- Keeping contexts in memory cannot be noticed. A service that keeps none and one that keeps any
number of them, each started on an empty store that refuses the same calls but never one to load,
give the same answers and leave the same records and marks, task by task. -/
theorem retention_transparent (fails : StoreCall → Nat → Bool)
    (hl : ∀ n, fails .load n = false) (tasks : List Task) (capacity : Nat) :
    ∃ t, transcript .none fails tasks = some t ∧
      transcript (.cache capacity) fails tasks = some t := by
  have htwins := empty_twins .none (.cache capacity) fails hl
  obtain ⟨result, s, t, hs, ht, hst, hgate⟩ := start_orderly.twins htwins fun _ => rfl
  unfold transcript
  rw [hs, ht]
  cases result with
  | error failure =>
    refine ⟨_, rfl, ?_⟩
    simp only [hst.alike.store.disk]
  | ok service =>
    obtain ⟨entries, hws, hwt⟩ := service.work_twins tasks hst ⟨hst.idle, hgate⟩
    simp only [hws, hwt, Option.map_some, hst.alike.store.disk]
    exact ⟨_, rfl, rfl⟩

/-- The second call to save is refused, which is the one for the first context that is made. -/
theorem retention_transparent_unsaved :
    ∃ t, transcript .none (fun call made => decide (call = .save) && made == 1)
        [.newContext, .call ⟨"NC0"⟩ (.list 3), .newContext, .sweep] = some t ∧
      transcript (.cache 1) (fun call made => decide (call = .save) && made == 1)
        [.newContext, .call ⟨"NC0"⟩ (.list 3), .newContext, .sweep] = some t :=
  retention_transparent _ (fun _ => rfl) _ 1

end Service

end Naming
