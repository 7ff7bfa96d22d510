import Naming.Proofs.RootStable
import Naming.Proofs.Rollbacks

namespace Naming

variable {disk : Disk} {running : Option Service} {service : Service} {s t : Server}

namespace Work

/-- The server after a piece of work, whatever the work has answered. -/
def carry? [Drawing] (service : Service) : Work → Server → Option Server
  | task given, s => ((given.request service).serve s).map (·.2)
  | command given, s => ((service.execute given).serve s).map (·.2)

theorem carry?_eq_some_iff [Drawing] {work : Work} :
    work.carry? service s = some t ↔ work.Takes service s t := by
  cases work <;> simp [carry?, Takes, Option.map_eq_some_iff]

/-- Every piece of work that has the server for itself ends and leaves it at rest, whatever calls of
the store fail. A sound server stays sound. -/
theorem serves [Drawing] (work : Work) (service : Service) (h : s.AtRest) :
    ∃ t, work.Takes service s t ∧ t.AtRest ∧ (s.Sound → t.Sound) := by
  cases work with
  | task given =>
    obtain ⟨answer, t, hserve, hrest, hsound⟩ := given.serves service h
    exact ⟨t, ⟨answer, hserve⟩, hrest, hsound⟩
  | command given =>
    obtain ⟨result, t, hrun, hk⟩ := given.run_serves service h
    obtain ⟨event, hserve⟩ := service.execute_run hrun
    refine ⟨t.note event, ⟨result, hserve⟩, ⟨hk.locks, hk.gate.trans h.free⟩, fun hsound => ?_⟩
    have ht := hk.sound hsound
    exact ⟨ht.disk, ht.resident⟩

/-- Work has one outcome. -/
theorem Takes.rest [Drawing] {work : Work} (h : work.Takes service s t) (hs : s.AtRest) :
    t.AtRest ∧ (s.Sound → t.Sound) := by
  obtain ⟨u, hu, hrest⟩ := work.serves service hs
  have hsame := (carry?_eq_some_iff.mpr h).symm.trans (carry?_eq_some_iff.mpr hu)
  cases hsame
  exact hrest

end Work

/-- A start that has the server for itself ends and leaves it at rest. -/
theorem Service.start_serves (s : Server) (retention : Retention) :
    ∃ result t, start.serve (s.restart retention) = some (result, t) ∧ t.AtRest ∧
      (s.store.disk.Sound → t.Sound) := by
  have hrest : (s.restart retention).AtRest := ⟨rfl, rfl⟩
  obtain ⟨result, t, hserve, hk, _⟩ := start_orderly.serves hrest.idle fun _ => hrest.opened
  exact ⟨result, t, hserve, ⟨hk.locks, hk.gate⟩, fun hsound => hk.sound ⟨hsound, nofun⟩⟩

/-- What one service after another comes to on a disk, by tasks of clients and commands of the user,
with the service that runs. A service may be started again at any time, with any retention, and the
store may come to refuse other calls at any time. -/
inductive Worked [Drawing] (disk : Disk) : Option Service → Server → Prop
  | idle (retention : Retention) (faults : Faults) :
      Worked disk none (disk.newServer retention faults)
  | start {running : Option Service} {s t : Server} {result : Except Failure Service}
      (before : Worked disk running s) (retention : Retention)
      (started : Service.start.serve (s.restart retention) = some (result, t)) :
      Worked disk result.toOption t
  | work {service : Service} {s t : Server} {work : Work} (before : Worked disk (some service) s)
      (takes : work.Takes service s t) : Worked disk (some service) t
  | refuse {running : Option Service} {s : Server} (before : Worked disk running s)
      (faults : Faults) : Worked disk running { s with store.faults := faults }

namespace Worked

theorem rest [Drawing] (h : Worked disk running s) : s.AtRest := by
  induction h with
  | idle retention faults => exact ⟨rfl, rfl⟩
  | start before retention started ih =>
    rename_i s t result
    obtain ⟨_, _, hserve, hrest, _⟩ := Service.start_serves s retention
    cases started.symm.trans hserve
    exact hrest
  | work before takes ih => exact (takes.rest ih).1
  | refuse before faults ih => exact ⟨ih.idle, ih.free⟩

/-- On a sound disk all that comes of it is sound. -/
theorem sound [Drawing] (h : Worked disk running s) (hd : disk.Sound) : s.Sound := by
  induction h with
  | idle retention faults => exact ⟨hd, nofun⟩
  | start before retention started ih =>
    rename_i s t result
    obtain ⟨_, _, hserve, _, hsound⟩ := Service.start_serves s retention
    cases started.symm.trans hserve
    exact hsound ih.disk
  | work before takes ih => exact (takes.rest before.rest).2 ih
  | refuse before faults ih => exact ⟨ih.disk, ih.resident⟩

/-- What every new server has, and every step and every refusal keeps, holds of all that comes of
it. -/
theorem keeps [Drawing] {I : Server → Prop}
    (idle : ∀ retention faults, I (disk.newServer retention faults))
    (restart : ∀ s retention, I s → I (s.restart retention))
    (run : ∀ {α : Type} {job : Job α} {a : α} {s t : Server}, I s → job.run s = some (a, t) → I t)
    (refuse : ∀ s faults, I s → I { s with store.faults := faults })
    (h : Worked disk running s) : I s := by
  induction h with
  | idle retention faults => exact idle retention faults
  | start before retention started ih => exact run (restart _ retention ih) started
  | work before takes ih =>
    rename_i given
    cases given with
    | task given =>
      obtain ⟨answer, hserve⟩ := takes
      exact run ih hserve
    | command given =>
      obtain ⟨answer, hserve⟩ := takes
      exact run ih hserve
  | refuse before faults ih => exact refuse _ faults ih

theorem play [Drawing] {tasks : List Task} {history later : History}
    (h : Worked disk (some service) s) (hp : service.play tasks s history = some (t, later)) :
    Worked disk (some service) t := by
  induction tasks generalizing s history with
  | nil =>
    cases hp
    exact h
  | cons task rest ih =>
    unfold Service.play at hp
    split at hp
    · cases hp
    · rename_i answer u hserve
      have htakes : (Work.task task).Takes service s u := ⟨answer, hserve⟩
      exact ih (h.work htakes) hp

theorem firstRun [Drawing] {tasks : List Task} {history : History}
    (h : Service.firstRun tasks = some (service, s, history)) : Worked {} (some service) s := by
  unfold Service.firstRun at h
  split at h
  · rename_i started u hstart
    obtain ⟨p, hplay, he⟩ := Option.map_eq_some_iff.mp h
    cases he
    exact ((idle .none {}).start .none hstart).play hplay
  · cases h

end Worked

end Naming
