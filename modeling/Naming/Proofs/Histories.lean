import Naming.Proofs.Tasks
import Naming.Proofs.UnboundMarks

namespace Naming

variable {s t : Server}

/-- The context that a call hands out unbound, told by its reply. -/
def Call.handsOut : Call → Reply → Option ContextKey
  | .newContext, .context key => some key
  | _, _ => none

/-- The context that a call of a context binds or destroys when it succeeds. -/
def Call.settles (key : ContextKey) : Call → Option ContextKey
  | .bindContext _ bound => some bound
  | .rebindContext _ bound => some bound
  | .destroy => some key
  | _ => none

def Task.handsOut : Task → Answer → Option ContextKey
  | .newContext, .context key => some key
  | .call _ c, .reply reply => c.handsOut reply
  | .handle _ _ c, .reply reply => c.handsOut reply
  | _, _ => none

def Task.settles : Task → Option ContextKey
  | .call key c => c.settles key
  | .handle key _ c => c.settles ⟨key⟩
  | _ => none

/-- The tasks since a service was started with their answers, the latest first. -/
abbrev History := List (Task × Except Failure Answer)

/-- By the history a context was handed out unbound, and since then neither bound nor destroyed. -/
def History.Held : History → ContextKey → Prop
  | [], _ => False
  | (_, .error _) :: earlier, key => Held earlier key
  | (task, .ok answer) :: earlier, key =>
    task.handsOut answer = some key ∨ (task.settles ≠ some key ∧ Held earlier key)

/-- What services on one store come to, from an empty store on, with the service that runs and its
history. A service may be started again at any time, with any retention. -/
inductive Reached (fails : StoreCall → Nat → Bool) : Option Service → Server → History → Prop
  | empty (retention : Retention) : Reached fails none
      { store := { faults := { fails := fails } }, memory := { retention := retention } } []
  | start {running : Option Service} {s t : Server} {history : History}
      {result : Except Failure Service} (before : Reached fails running s history)
      (retention : Retention)
      (started : Service.start.serve (s.restart retention) = some (result, t)) :
      Reached fails result.toOption t []
  | task {service : Service} {s t : Server} {history : History} {task : Task}
      {answer : Except Failure Answer} (before : Reached fails (some service) s history)
      (served : (task.request service).serve s = some (answer, t)) :
      Reached fails (some service) t ((task, answer) :: history)

/-- Works through tasks, the first one first, and takes them down in the history. -/
def Service.play (service : Service) : List Task → Server → History → Option (Server × History)
  | [], s, history => some (s, history)
  | task :: rest, s, history =>
    match (task.request service).serve s with
    | none => none
    | some (answer, t) => service.play rest t ((task, answer) :: history)

/-- Starts a service on an empty store that refuses no call, and works through tasks. -/
def Service.firstRun (tasks : List Task) : Option (Service × Server × History) :=
  match Service.start.serve { store := {}, memory := {} } with
  | some (.ok service, s) => (service.play tasks s []).map fun p => (service, p)
  | _ => none

namespace Reached

variable {service : Service} {tasks : List Task} {history later : History}

theorem play {fails : StoreCall → Nat → Bool} (h : Reached fails (some service) s history)
    (hp : service.play tasks s history = some (t, later)) :
    Reached fails (some service) t later := by
  induction tasks generalizing s history with
  | nil =>
    cases hp
    exact h
  | cons task rest ih =>
    unfold Service.play at hp
    split at hp
    · cases hp
    · rename_i answer u hserve
      exact ih (h.task hserve) hp

theorem firstRun (h : Service.firstRun tasks = some (service, s, history)) :
    Reached (fun _ _ => false) (some service) s history := by
  unfold Service.firstRun at h
  split at h
  · rename_i started u hstart
    obtain ⟨p, hplay, he⟩ := Option.map_eq_some_iff.mp h
    cases he
    exact ((Reached.empty .none).start .none hstart).play hplay
  · cases h

end Reached

namespace Server

theorem AtRest.ready (h : s.AtRest) : s.Ready := ⟨h.idle, h.opened⟩

/-- What a request changes that hands a context out or settles one only when it succeeds. -/
def Marked {α : Type} (s t : Server) (result : Except Failure α) (hands : α → Option ContextKey)
    (settled : Option ContextKey) : Prop :=
  match result with
  | .error _ => s.Marks t none none
  | .ok a => s.Marks t (hands a) settled

/-- Earlier changes that concern no mark make no difference. -/
theorem Marked.after {α : Type} {u : Server} {result : Except Failure α}
    {hands : α → Option ContextKey} {settled : Option ContextKey}
    (h : u.Marked t result hands settled) (hu : u.memory.unbound = s.memory.unbound) :
    s.Marked t result hands settled := by
  have hafter : ∀ {handed settled}, u.Marks t handed settled → s.Marks t handed settled :=
    fun hm => ⟨hu ▸ hm.unbound, hm.counted⟩
  cases result <;> exact hafter h

end Server

namespace Call

variable {c : Context} {result : Except Failure Reply}

theorem marked_bind {name : Name} {target : Target} {placement : Context.Placement}
    {operation : Operation} (hs : s.Ready)
    (h : (c.bindTarget name target placement operation >>= fun _ =>
      (pure Reply.finished : Request Reply)).serve s = some (result, t)) :
    s.Marked t result (fun _ => none) target.context? := by
  obtain ⟨outcome, hserve, rfl⟩ := Request.serve_map_cases h
  rcases Context.bindTarget_marks hs hserve with ⟨failure, rfl, hu⟩ | ⟨rfl, hu⟩
  · exact Server.marks_none hu
  · cases target with
    | context key => exact Server.marks_settled hu
    | object reference => exact Server.marks_none hu

/-- A call changes which contexts count as unbound as its reply tells. -/
theorem run_marked {call : Call} (hs : s.Ready) (hn : s.Numbered)
    (h : (call.run c).serve s = some (result, t)) :
    s.Marked t result call.handsOut (call.settles c.key) := by
  have hquiet : Orderly false true (call.run c) → call.handsOut = (fun _ => none) →
      call.settles c.key = none → s.Marked t result call.handsOut (call.settles c.key) := by
    intro horderly hhands hsettles
    have hu := Server.marks_none (horderly.quiet hs h)
    rw [hhands, hsettles]
    cases result <;> exact hu
  cases call with
  | bind name reference => exact marked_bind hs h
  | bindContext name key => exact marked_bind hs h
  | rebind name reference => exact marked_bind hs h
  | rebindContext name key => exact marked_bind hs h
  | resolve name => exact hquiet (.bind (c.resolve_orderly name) fun _ => .pure _) rfl rfl
  | unbind name => exact hquiet (.bind (c.unbind_orderly name) fun _ => .pure _) rfl rfl
  | list max => exact hquiet (.bind (c.list_orderly max) fun _ => .pure _) rfl rfl
  | toText name => exact hquiet (.bind (c.demand_orderly _) fun _ => .pure _) rfl rfl
  | toName text =>
    exact hquiet (.bind (c.demand_orderly _) fun _ => .bind (.ofExcept _) fun _ => .pure _) rfl rfl
  | resolveText text => exact hquiet (.bind (c.resolveText_orderly text) fun _ => .pure _) rfl rfl
  | newContext =>
    obtain ⟨outcome, hserve, rfl⟩ := Request.serve_map_cases h
    rcases Context.newContext_marks hs hserve with ⟨failure, rfl, hu⟩ | ⟨created, rfl, hc, hu⟩
    · exact Server.marks_none hu
    · exact Server.marks_handed hc hu
  | bindNewContext name =>
    obtain ⟨outcome, hserve, rfl⟩ := Request.serve_map_cases h
    have hu := Server.marks_none (Context.bindNewContext_marks hs hn hserve)
    cases outcome <;> exact hu
  | destroy =>
    obtain ⟨outcome, hserve, rfl⟩ := Request.serve_map_cases h
    rcases Context.destroy_marks hs hserve with ⟨failure, rfl, hu⟩ | ⟨rfl, hu⟩
    · exact Server.marks_none hu
    · exact Server.marks_settled hu

end Call

/-- Why a request under the name of an operation is turned down before its call is made. -/
def Call.refused (call : Call) (operation : String) : Option Failure :=
  match Operation.ofName operation with
  | .error failure => some failure
  | .ok operation =>
    if operation ≠ call.operation then
      let reason := s!"operation {operation.name} does not match {call.operation.name} arguments"
      some (.badOperation reason)
    else none

/-- A request under the name of an operation is turned down, or its call is made. -/
theorem Service.handle_serves (service : Service) (key operation : String) (call : Call)
    (s : Server) : (∃ failure, call.refused operation = some failure ∧
      (service.handle key operation call).serve s = some (.error failure, s)) ∨
    call.refused operation = none ∧ ∃ event, (service.handle key operation call).serve s =
      (call.run (service.context ⟨key⟩)).serve (s.note event) := by
  unfold handle Call.refused
  rw [Request.serve_bind, Request.serve_ofExcept]
  cases Operation.ofName operation with
  | error failure => exact .inl ⟨failure, rfl, rfl⟩
  | ok operation =>
    dsimp only
    split
    · exact .inl ⟨_, rfl, rfl⟩
    · exact .inr ⟨rfl, _, rfl⟩

theorem Service.handle_cases {service : Service} {key operation : String} {call : Call}
    {result : Except Failure Reply}
    (h : (service.handle key operation call).serve s = some (result, t)) :
    (∃ failure, result = .error failure ∧ t = s) ∨
      ∃ event, (call.run (service.context ⟨key⟩)).serve (s.note event) = some (result, t) := by
  rcases service.handle_serves key operation call s with
    ⟨failure, _, hserve⟩ | ⟨_, event, hserve⟩
  · rw [h] at hserve
    cases hserve
    exact .inl ⟨failure, rfl, rfl⟩
  · exact .inr ⟨event, hserve ▸ h⟩

namespace Task

variable {service : Service} {task : Task} {answer : Except Failure Answer}

theorem reply_marked {r : Request Reply} {hands : Reply → Option ContextKey}
    {settled : Option ContextKey} {task : Task}
    (hhands : ∀ reply, task.handsOut (.reply reply) = hands reply)
    (h : (r >>= fun reply => (pure (Answer.reply reply) : Request Answer)).serve s =
      some (answer, t))
    (hr : ∀ result, r.serve s = some (result, t) → s.Marked t result hands settled) :
    s.Marked t answer task.handsOut settled := by
  obtain ⟨outcome, hserve, rfl⟩ := Request.serve_map_cases h
  have hm := hr outcome hserve
  cases outcome with
  | error failure => exact hm
  | ok reply =>
    have hm : s.Marks t (hands reply) settled := hm
    rw [← hhands reply] at hm
    exact hm

theorem handle_marked {key operation : String} {call : Call} {result : Except Failure Reply}
    (hs : s.Ready) (hn : s.Numbered)
    (h : (service.handle key operation call).serve s = some (result, t)) :
    s.Marked t result call.handsOut (call.settles ⟨key⟩) := by
  rcases Service.handle_cases h with ⟨failure, rfl, rfl⟩ | ⟨event, hcall⟩
  · exact Server.marks_none rfl
  · exact (Call.run_marked (hs.note event) hn hcall).after rfl

/-- A task changes which contexts count as unbound as its answer tells. -/
theorem request_marked (hs : s.AtRest) (hn : s.Numbered)
    (h : (task.request service).serve s = some (answer, t)) :
    s.Marked t answer task.handsOut task.settles := by
  have hquiet : t.memory.unbound = s.memory.unbound → task.handsOut = (fun _ => none) →
      task.settles = none → s.Marked t answer task.handsOut task.settles := by
    intro hu hhands hsettles
    rw [hhands, hsettles]
    cases answer <;> exact Server.marks_none hu
  cases task with
  | call key c => exact reply_marked (fun _ => rfl) h fun _ hr => Call.run_marked hs.ready hn hr
  | handle key operation c =>
    exact reply_marked (fun _ => rfl) h fun _ hr => handle_marked hs.ready hn hr
  | resolveContext key name =>
    have hr : Orderly false true ((resolveContext key name).request service) :=
      .bind ((service.context key).resolveContext_orderly name) fun _ => .pure _
    exact hquiet (hr.quiet hs.ready h) rfl rfl
  | contextCount =>
    have hr : Orderly false true (contextCount.request service) :=
      .bind Service.contextCount_orderly fun _ => .pure _
    exact hquiet (hr.quiet hs.ready h) rfl rfl
  | sweep =>
    obtain ⟨outcome, hserve, rfl⟩ := Request.serve_map_cases h
    obtain ⟨_, _, hsweep, _, hu⟩ := service.sweep_serves hs.idle hs.free
    rw [hserve] at hsweep
    cases hsweep
    exact hquiet hu rfl rfl
  | newContext =>
    obtain ⟨outcome, hserve, rfl⟩ := Request.serve_map_cases h
    obtain ⟨result, hcreate, rfl⟩ := Request.serve_map_cases hserve
    rcases createUnbound_marks hs.ready hcreate with ⟨failure, rfl, hu⟩ | ⟨key, rfl, hc, hu⟩
    · exact Server.marks_none hu
    · exact Server.marks_handed hc hu

end Task

namespace Reached

variable {fails : StoreCall → Nat → Bool} {running : Option Service} {history : History}

/-- What holds of a server whatever came before: it is at rest and sound, its counter can be read,
and those contexts count as unbound that are held by the history. -/
structure Settled (fails : StoreCall → Nat → Bool) (s : Server) (history : History) : Prop where
  faults : s.store.faults.fails = fails
  rest : s.AtRest
  sound : s.Sound
  numbered : s.Numbered
  held : ∀ key, key ∈ s.memory.unbound ↔ history.Held key

theorem settled (h : Reached fails running s history) : Settled fails s history := by
  induction h with
  | empty retention =>
    exact ⟨rfl, ⟨rfl, rfl⟩, ⟨Disk.sound_empty, nofun⟩, ⟨0, rfl, nofun⟩, fun key => ⟨nofun, nofun⟩⟩
  | start before retention started ih =>
    rename_i s t history result
    -- a restart forgets every mark, as the new history holds none
    have hrest : (s.restart retention).AtRest := ⟨rfl, rfl⟩
    have hk := Service.start_orderly.kept hrest.idle (fun _ => hrest.ready.opened) started
    have hu := Service.start_orderly.quiet hrest.ready started
    have hmarks : (s.restart retention).Marks t none none := Server.marks_none hu
    have hnumbered : (s.restart retention).Numbered := by
      obtain ⟨n, hn, _⟩ := ih.numbered
      exact ⟨n, hn, nofun⟩
    refine ⟨(Job.run_fails started).trans ih.faults, ⟨hk.locks, hk.gate.trans hrest.free⟩,
      hk.sound ⟨ih.sound.disk, nofun⟩, hmarks.numbered (Job.run_counts started) hnumbered,
      fun key => ?_⟩
    rw [hu]
    exact ⟨nofun, nofun⟩
  | task before served ih =>
    rename_i service s t history task answer
    obtain ⟨_, _, hserve, hrest, hsound⟩ := task.serves service ih.rest
    rw [served] at hserve
    cases hserve
    have hm := Task.request_marked ih.rest ih.numbered served
    have hc := Job.run_counts served
    have hf := (Job.run_fails served).trans ih.faults
    cases answer with
    | error failure =>
      have hm : s.Marks t none none := hm
      refine ⟨hf, hrest, hsound ih.sound, hm.numbered hc ih.numbered, fun key => ?_⟩
      rw [hm.unbound key, ih.held key]
      simp [History.Held]
    | ok answer =>
      have hm : s.Marks t (task.handsOut answer) task.settles := hm
      refine ⟨hf, hrest, hsound ih.sound, hm.numbered hc ih.numbered, fun key => ?_⟩
      rw [hm.unbound key, ih.held key]
      rfl

end Reached

end Naming
