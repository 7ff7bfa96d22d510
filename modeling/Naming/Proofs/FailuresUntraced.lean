import Naming.Proofs.AnswersAcrossGaps
import Naming.Proofs.KeysFresh

namespace Naming

namespace Gap

variable {d e : Disk} {n width : Nat} {key : ContextKey}

/-- Between two disks with the same records there is a gap where the counter of the second is
ahead. -/
theorem Spans.of_contexts (hd : d.Sound) (hkeyed : d.Keyed n) (hmoved : e.Keyed (n + width))
    (hroot : e.root? = d.root?) (hc : e.contexts = d.contexts) :
    (⟨n, width⟩ : Gap).Spans none n d e := by
  have hload : ∀ k, e.load k = d.load k := fun k => Disk.load_congr (by rw [hc])
  have hbelow : ∀ k, d.contains k = true → k.Below n := hkeyed.records
  refine ⟨hkeyed, hmoved, Nat.le_refl n, hroot, fun k => ?_, fun k => ?_, fun k hk => ?_, nofun⟩
  · rcases hd.load_cases k with hnone | ⟨bindings, hsome, _⟩
    · exact ⟨none, hnone⟩
    · exact ⟨some bindings, hsome⟩
  · rw [hload]
    rcases hd.load_cases k with hnone | ⟨bindings, hsome, _⟩
    · -- a key without a record may have been moved, but not to one that has a record
      cases hstored : d.contains (Gap.key ⟨n, width⟩ k) with
      | false =>
        rw [Disk.load_of_not_contains hstored, hnone]
        rfl
      | true =>
        rw [eq_key_of_below (hbelow _ hstored), hnone]
        rfl
    · rw [key_below (hbelow k (Disk.contains_of_load hsome)), hsome]
      simp only [Except.map, Option.map_some]
      rw [bindings_below]
      intro other ho
      rw [← Disk.links_of_load hsome] at ho
      exact hkeyed.links k other ho
  · rw [Disk.contains_eq, hc, ← Disk.contains_eq] at hk
    exact .inl ⟨k, (key_below (hbelow k hk)).symm⟩

/-- A context that was just made is an orphan to the disk that knows nothing of it. -/
theorem Spans.of_created (hd : d.Sound) (hkeyed : d.Keyed n) (hmade : d.create = .ok (key, e)) :
    (⟨n, 1⟩ : Gap).Spans (some key) n d e := by
  obtain ⟨f, hallocate, hput⟩ := Disk.create_ok hmade
  obtain ⟨hkey, hcontexts, hhanded⟩ := hkeyed.allocated hallocate
  have hspans := Spans.of_contexts hd hkeyed hhanded (Disk.allocate_root hallocate) hcontexts
  have hoff : ∀ k, key ≠ Gap.key ⟨n, 1⟩ k := by
    intro k he
    exact key_outside (Nat.le_refl n) (Nat.lt_succ_self n) (he.symm.trans hkey)
  refine ⟨hkeyed, (hkeyed.created hmade).2, Nat.le_refl n, ?_, hspans.readable, fun k => ?_,
    fun k hk => ?_, fun k hk => ?_⟩
  · exact (Disk.root?_congr (Disk.marks_save (Disk.put_ok hput))).trans hspans.root
  · rw [Disk.load_save_other (Disk.put_ok hput) (hoff k).symm]
    exact hspans.load k
  · rw [Disk.contains_put hput] at hk
    by_cases he : k = key
    · exact .inr (congrArg some he.symm)
    · simp only [he, decide_false, Bool.false_or] at hk
      exact .inl ((hspans.others k hk).resolve_right nofun)
  · cases hk
    exact ⟨Disk.load_created hmade, hoff⟩

end Gap

variable {fails : StoreCall → Nat → Bool} {s t : Server} {history latest : History} {n : Nat}
  {service : Service}

theorem Reached.Settled.calm (h : Reached.Settled fails s history) : s.calm.Calm :=
  ⟨⟨h.rest.idle, h.rest.free⟩, ⟨h.sound.disk, h.sound.resident⟩, rfl, h.numbered⟩

/-- Two servers with the same marks are on both sides of the gap that lies between their disks. -/
theorem Reached.Settled.divides {g : Gap} {orphan : Option ContextKey}
    (hs : Reached.Settled fails s history) (ht : Reached.Settled fails t latest)
    (hspans : g.Spans orphan g.first s.store.disk t.store.disk)
    (hunbound : ∀ key, key ∈ t.memory.unbound ↔ key ∈ s.memory.unbound) :
    g.Divides orphan g.first s.calm t.calm := by
  have hbelow : ∀ key ∈ s.memory.unbound, key.Below g.first := by
    obtain ⟨n, hn, hnumbers⟩ := hs.numbered
    have hfirst : n = g.first := Except.ok.inj (hn.symm.trans hspans.keyed.counter)
    exact hfirst ▸ hnumbers
  refine ⟨hs.calm, ht.calm, hspans, fun key => ?_, fun key hk => ?_⟩
  · refine (hunbound _).trans ⟨fun hk => ?_, fun hk => ?_⟩
    · have hsame := Gap.eq_key_of_below (hbelow _ hk)
      exact hsame ▸ hk
    · rw [Gap.key_below (hbelow key hk)]
      exact hk
  · exact ⟨key, (Gap.key_below (hbelow key ((hunbound key).mp hk))).symm⟩

/-- Every load but the first is refused. -/
def unloading : StoreCall → Nat → Bool
  | .load, made => 1 ≤ made
  | _, _ => false

/-- A store that refuses every load from now on, and nothing else. -/
structure Server.Unloading (s : Server) : Prop where
  fails : s.store.faults.fails = unloading
  made : 1 ≤ s.store.faults.made.load

theorem Server.Unloading.later {α : Type} {job : Job α} {a : α} (h : s.Unloading)
    (hr : job.run s = some (a, t)) : t.Unloading := by
  have honward := Job.run_onward hr
  exact ⟨honward.fails.trans h.fails, Nat.le_trans h.made (honward.made .load)⟩

/-- The record of a new context cannot be written when the context cannot be activated. -/
theorem during_unloading {key : ContextKey} {result : Except Failure Unit} (h : s.Unloading)
    (hs : s.Ready) (hsound : s.Sound) (hfresh : s.store.disk.contains key = false)
    (hr : (Active.during key .newContext .create Active.commit).serve s = some (result, t)) :
    (∃ failure, result = .error failure) ∧ t.store.disk = s.store.disk := by
  have hresident : s.memory.resident.get? key = none := by
    cases hget : s.memory.resident.get? key with
    | none => rfl
    | some bindings =>
      rw [Disk.contains_of_load (hsound.resident key bindings hget)] at hfresh
      cases hfresh
  have hrefused : (s.store.load key).1 = .error Store.refusal := by
    have hfails : s.store.faults.fails .load (s.store.faults.made.get .load) = true := by
      rw [h.fails]
      exact decide_eq_true h.made
    unfold Store.load Store.call
    rw [if_pos hfails]
  rw [Active.serve_during key .newContext .create _ hs.idle] at hr
  simp only [Server.found, hresident, hrefused] at hr
  cases hr
  exact ⟨⟨_, rfl⟩, s.looked_disk key⟩

/-- What a failure leaves behind that has spent a number. -/
def Server.Spent (t : Server) (n : Nat) {α : Type} (result : Except Failure α) : Prop :=
  (∃ failure, result = .error failure) ∧ t.store.disk.highWaterMark = .ok (n + 1)

theorem createContext_unloading {result : Except Failure ContextKey} (h : s.Unloading)
    (hs : s.Ready) (hsound : s.Sound) (hkeyed : s.store.disk.Keyed n)
    (hlimit : n + 1 < Counter.limit) (hr : createContext.serve s = some (result, t)) :
    t.Spent n result := by
  obtain ⟨u, hu, rfl⟩ := Request.serve_gated_cases hs.opened hr
  have hallocates := Request.performs_allocate
  have hentered : s.entered.Sound := ⟨hsound.disk, hsound.resident⟩
  rcases Request.serve_bind_cases hu with ⟨failure, hfirst, rfl⟩ | ⟨key, v, hfirst, hrest⟩
  · cases hallocates.comes hs.entered hentered hfirst with
    | refused made refusal _ =>
      cases List.mem_singleton.mp made
      obtain ⟨m, _, _, hm⟩ := refusal
      have hfails : s.store.faults.fails .allocate m = true := hm
      rw [h.fails] at hfails
      cases hfails
    | failed failure_told _ =>
      have hallocate := Disk.allocate_eq hkeyed.counter
      rw [if_pos hlimit] at hallocate
      have hfailed : (s.store.disk.allocate.mapError Failure.ofStorage) = .error failure :=
        failure_told
      rw [hallocate] at hfailed
      cases hfailed
  · have hv := hallocates.orderly.ready hs.entered hfirst
    have hvsound := hallocates.orderly.sound hs.entered hentered hfirst
    have hvloading : v.Unloading := Server.Unloading.later (s := s.entered) ⟨h.fails, h.made⟩ hfirst
    have hallocate : s.store.disk.allocate = .ok (key, v.store.disk) :=
      mapError_ok (hallocates.comes hs.entered hentered hfirst).told_ok
    obtain ⟨hkey, hcontexts, hnext⟩ := hkeyed.allocated hallocate
    have hfresh : v.store.disk.contains key = false := by
      rw [Disk.contains_eq, hcontexts, ← Disk.contains_eq, hkey]
      exact hkeyed.not_contains
    rcases Request.serve_bind_cases hrest with ⟨failure, hsecond, rfl⟩ | ⟨_, w, hsecond, _⟩
    · obtain ⟨_, hsame⟩ := during_unloading hvloading hv hvsound hfresh hsecond
      refine ⟨⟨failure, rfl⟩, ?_⟩
      have hdisk : u.left.store.disk = v.store.disk := hsame
      rw [hdisk]
      exact hnext.counter
    · obtain ⟨⟨_, hfailed⟩, _⟩ := during_unloading hvloading hv hvsound hfresh hsecond
      cases hfailed

theorem newContext_unloading {answer : Except Failure Answer} (h : s.Unloading) (hs : s.Ready)
    (hsound : s.Sound) (hkeyed : s.store.disk.Keyed n) (hlimit : n + 1 < Counter.limit)
    (hr : (Task.newContext.request service).serve s = some (answer, t)) : t.Spent n answer := by
  obtain ⟨outcome, hserve, rfl⟩ := Request.serve_map_cases hr
  obtain ⟨made, hcreate, rfl⟩ := Request.serve_map_cases hserve
  obtain ⟨u, hu, rfl⟩ := Request.serve_gated_cases hs.opened hcreate
  have hentered : s.entered.Unloading := ⟨h.fails, h.made⟩
  have hsound : s.entered.Sound := ⟨hsound.disk, hsound.resident⟩
  rcases Request.serve_bind_cases hu with ⟨failure, hfirst, rfl⟩ | ⟨key, v, hfirst, _⟩
  · obtain ⟨_, hcounter⟩ :=
      createContext_unloading hentered hs.entered hsound hkeyed hlimit hfirst
    exact ⟨⟨failure, rfl⟩, hcounter⟩
  · obtain ⟨⟨_, hfailed⟩, _⟩ :=
      createContext_unloading hentered hs.entered hsound hkeyed hlimit hfirst
    cases hfailed

/-- While no record can be loaded each new context spends a number, until there are none left. -/
theorem Reached.unloading (n : Nat) (hlimit : n + 1 < Counter.limit) : ∃ service s history,
    Reached unloading (some service) s history ∧ s.Unloading ∧ s.store.disk.Keyed (n + 1) := by
  induction n with
  | zero =>
    have hrun : (Service.start.serve (Server.restart
        { store := { faults := { fails := Naming.unloading } }, memory := {} } .none)).any (fun p =>
          p.1.toOption.isSome && decide (1 ≤ p.2.store.faults.made.load) &&
            decide (p.2.store.disk.highWaterMark.toOption = some 1)) = true := by
      decide +kernel
    obtain ⟨⟨result, s⟩, hstart, hrun⟩ := (Option.any_eq_true _ _).mp hrun
    obtain ⟨hrun, hcounter⟩ := Bool.and_eq_true_iff.mp hrun
    obtain ⟨hstarted, hmade⟩ := Bool.and_eq_true_iff.mp hrun
    have hreached := (Reached.empty .none).start .none hstart
    obtain ⟨n, hkeyed, _⟩ := hreached.keyed
    rw [hkeyed.counter] at hcounter
    have hone : n = 0 + 1 := Option.some.inj (of_decide_eq_true hcounter)
    cases result with
    | error failure => cases hstarted
    | ok service =>
      exact ⟨service, s, [], hreached, ⟨Job.run_fails hstart, of_decide_eq_true hmade⟩,
        hone ▸ hkeyed⟩
  | succ n ih =>
    obtain ⟨service, s, history, hreached, hloading, hkeyed⟩ := ih (by omega)
    have hsettled := hreached.settled
    obtain ⟨answer, t, hserve, _⟩ := Task.newContext.serves service hsettled.rest
    have hlatest := hreached.task hserve
    obtain ⟨_, hcounter⟩ := newContext_unloading hloading hsettled.rest.ready hsettled.sound hkeyed
      hlimit hserve
    obtain ⟨m, hm, _⟩ := hlatest.keyed
    have hnext : m = n + 2 := Except.ok.inj (hm.counter.symm.trans hcounter)
    exact ⟨service, t, _, hlatest, hloading.later hserve, hnext ▸ hm⟩

/-- When no call is refused a context is made as long as there are numbers left. -/
theorem Server.Calm.makes (h : s.Calm) (hkeyed : s.store.disk.Keyed n) (service : Service) :
    ∃ answer t, (Task.newContext.request service).serve s = some (answer, t) ∧
      ((∃ a, answer = .ok a) ↔ n + 1 < Counter.limit) := by
  obtain ⟨answer, t, hserve, _⟩ := h.serves .newContext service
  refine ⟨answer, t, hserve, ?_⟩
  obtain ⟨outcome, hmade, rfl⟩ := Request.serve_map_cases hserve
  obtain ⟨made, hcreate, rfl⟩ := Request.serve_map_cases hmade
  have hexact := (createUnbound_spends.spends h.rest.ready h.sound hkeyed hcreate).exact h.willing
  have hallocate := Disk.allocate_eq hkeyed.counter
  cases made with
  | error failure =>
    refine ⟨nofun, fun hlt => ?_⟩
    rw [if_pos hlt] at hallocate
    obtain ⟨_, _, hdone⟩ := hkeyed.furnish hallocate
    rw [hexact] at hdone
    cases hdone
  | ok key =>
    refine ⟨fun _ => ?_, fun _ => ⟨_, rfl⟩⟩
    obtain ⟨f, hhanded, _⟩ := Disk.create_ok hexact
    rw [hhanded] at hallocate
    split at hallocate
    · assumption
    · cases hallocate

/-- What is known of the record of a context that was made and could neither be bound nor be
destroyed again. -/
structure Service.Orphans (service : Service) (s t : Server) (key : ContextKey) : Prop where
  fresh : s.store.disk.contains key = false
  empty : t.store.disk.load key = .ok (some .empty)
  others : ∀ place, place ≠ Disk.place key →
    t.store.disk.contexts.get? place = s.store.disk.contexts.get? place
  unlinked : ∀ other, key ∉ t.store.disk.links other
  cleanup : s.store.CleanupRefused t.store key
  swept : ∃ removed u, service.sweep.serve t.calm = some (.ok removed, u) ∧ key ∈ removed ∧
    u.store.disk.contains key = false

theorem Service.orphans {g : Gap} {key : ContextKey}
    (hdivides : g.Divides (some key) g.first s.calm t.calm) (hroot : service.root.Below g.first)
    (hmade : s.store.disk.create = .ok (key, t.store.disk))
    (hcleanup : s.store.CleanupRefused t.store key) : service.Orphans s t key := by
  have hspans : g.Spans (some key) g.first s.store.disk t.store.disk := hdivides.spans
  obtain ⟨f, hallocate, hput⟩ := Disk.create_ok hmade
  obtain ⟨hkey, hcontexts, _⟩ := hspans.keyed.allocated hallocate
  obtain ⟨hfresh, hunlinked⟩ := hspans.keyed.unused (Nat.le_refl _)
  rw [← hkey] at hfresh hunlinked
  refine ⟨hfresh, Disk.load_created hmade, fun place hp => ?_, fun other ho => ?_, hcleanup, ?_⟩
  · rw [Disk.get?_save (Disk.put_ok hput), if_neg hp, hcontexts]
  · rw [Disk.links_put hput] at ho
    split at ho
    · rw [BindingSet.contexts_empty] at ho
      cases ho
    · have hsame : f.links other = s.store.disk.links other := Disk.links_congr (by rw [hcontexts])
      exact hunlinked other (hsame ▸ ho)
  · obtain ⟨_, _, hs⟩ := service.sweep_collects hdivides.calm.rest hdivides.calm.sound
      hdivides.calm.willing
    obtain ⟨removed, u, ht⟩ := service.sweep_collects hdivides.moved.rest hdivides.moved.sound
      hdivides.moved.willing
    have hremoved := (hdivides.garbage hroot hs ht key).mpr (.inl rfl)
    refine ⟨removed, u, ht.served, hremoved, ?_⟩
    cases hc : u.store.disk.contains key with
    | false => rfl
    | true => exact absurd hremoved ((ht.contains_iff key).mp hc).2

/-- A task that fails leaves no trace: while numbers last, later tasks come to the same as if it had
never been tried, up to the numbers of new keys. -/
theorem Service.failure_untraced {task : Task} {failure : Failure}
    (h : Reached fails (some service) s history) (hsweep : task ≠ .sweep)
    (hserve : (task.request service).serve s = some (.error failure, t)) :
    ∃ (g : Gap) (orphan : Option ContextKey), s.store.disk.highWaterMark = .ok g.first ∧
      t.store.disk.highWaterMark = .ok (g.first + g.width) ∧ g.width ≤ task.creates.toNat ∧
      t.store.disk.root? = s.store.disk.root? ∧
      (∀ key, key ∈ t.memory.unbound ↔ key ∈ s.memory.unbound) ∧
      (orphan = none ∧ t.store.disk.contexts = s.store.disk.contexts ∨
        task.bindsNew = true ∧ orphan = some (.ofIndex g.first) ∧
          service.Orphans s t (.ofIndex g.first)) ∧
      ∀ tasks, g.Room (g.first + tasks.countP Task.creates) → ∃ entries entries',
        service.work tasks s.calm = some entries ∧
        service.work (tasks.map g.task) t.calm = some entries' ∧
        g.Follows orphan tasks entries entries' := by
  have hsettled := h.settled
  have hlatest := (h.task hserve).settled
  obtain ⟨n, hkeyed, _⟩ := h.keyed
  have hroot := h.root_below hkeyed
  have hmarked := Task.request_marked hsettled.rest hsettled.numbered hserve
  have hmarks : s.Marks t none none := hmarked
  have hunbound : ∀ key, key ∈ t.memory.unbound ↔ key ∈ s.memory.unbound := by
    intro key
    rw [hmarks.unbound]
    simp
  obtain ⟨_, _, hends, _⟩ := Task.request_ends hsweep hsettled.rest.ready hsettled.sound hkeyed
    hroot hserve
  have hsound := hsettled.sound.disk
  cases hends.leaves with
  | same same =>
    have hspans : (⟨n, 0⟩ : Gap).Spans none n s.store.disk t.store.disk := by
      rw [same]
      exact .of_contexts hsound hkeyed hkeyed rfl rfl
    have hdivides := hsettled.divides hlatest hspans hunbound
    exact ⟨⟨n, 0⟩, none, hkeyed.counter, hspans.moved.counter, Nat.zero_le _, hspans.root, hunbound,
      .inl ⟨rfl, congrArg Disk.contexts same⟩, fun tasks => hdivides.work hroot tasks⟩
  | spent creating handed =>
    obtain ⟨_, hcontexts, hmoved⟩ := hkeyed.allocated handed
    have hspans : (⟨n, 1⟩ : Gap).Spans none n s.store.disk t.store.disk :=
      .of_contexts hsound hkeyed hmoved (Disk.allocate_root handed) hcontexts
    have hdivides := hsettled.divides hlatest hspans hunbound
    refine ⟨⟨n, 1⟩, none, hkeyed.counter, hmoved.counter, ?_, hspans.root, hunbound,
      .inl ⟨rfl, hcontexts⟩, fun tasks => hdivides.work hroot tasks⟩
    rw [creating]
    exact Nat.le_refl 1
  | orphaned binding made cleanup =>
    obtain ⟨hkey, hmoved⟩ := hkeyed.created made
    have hspans : (⟨n, 1⟩ : Gap).Spans _ n s.store.disk t.store.disk :=
      .of_created hsound hkeyed made
    have hdivides := hsettled.divides hlatest hspans hunbound
    have horphans := Service.orphans hdivides hroot made cleanup
    refine ⟨⟨n, 1⟩, _, hkeyed.counter, hmoved.counter, ?_, hspans.root, hunbound,
      .inr ⟨binding, congrArg some hkey, hkey ▸ horphans⟩,
      fun tasks => hdivides.work hroot tasks⟩
    rw [Task.creates_of_bindsNew binding]
    exact Nat.le_refl 1

/-- The third record that is written and the first removal are refused. -/
def orphaning : StoreCall → Nat → Bool
  | .save, made => made == 2
  | .remove, made => made == 0
  | _, _ => false

def bindsNewChild : Task := .call ⟨"NC0"⟩ (.bindNewContext (.single ⟨.ofId "a", rfl⟩))

/-- A context is made and can neither be bound nor be destroyed again. Then another is made, and
all is swept. -/
theorem Service.failure_untraced_orphan : ∃ service now earlier failure t g entries entries',
    Run.replay [.start .none]
        ⟨.opened, none, { store := { faults := { fails := orphaning } }, memory := {} }⟩ [] =
      some (now, earlier) ∧ now.running = some service ∧
      (bindsNewChild.request service).serve now.server = some (.error failure, t) ∧
      service.work [.newContext, .contextCount, .sweep] now.server.calm = some entries ∧
      service.work ([Task.newContext, .contextCount, .sweep].map g.task) t.calm = some entries' ∧
      Gap.Follows g (some ⟨"NC1"⟩) [.newContext, .contextCount, .sweep] entries entries' := by
  have hrun : (Run.replay [.start .none]
      ⟨.opened, none, { store := { faults := { fails := orphaning } }, memory := {} }⟩ []).any
      (fun p => p.1.running.any fun service =>
        decide (p.1.server.store.disk.highWaterMark.toOption = some 1) &&
        !p.1.server.store.disk.contains ⟨"NC1"⟩ &&
        ((bindsNewChild.request service).serve p.1.server).any fun q =>
          !q.1.toOption.isSome && q.2.store.disk.contains ⟨"NC1"⟩) = true := by
    decide +kernel
  obtain ⟨⟨now, earlier⟩, hreplay, hrun⟩ := (Option.any_eq_true _ _).mp hrun
  obtain ⟨service, hrunning, hrun⟩ := (Option.any_eq_true _ _).mp hrun
  obtain ⟨hbefore, hrun⟩ := Bool.and_eq_true_iff.mp hrun
  obtain ⟨hcounter, habsent⟩ := Bool.and_eq_true_iff.mp hbefore
  obtain ⟨⟨answer, t⟩, hserve, hrun⟩ := (Option.any_eq_true _ _).mp hrun
  obtain ⟨hfailed, hstored⟩ := Bool.and_eq_true_iff.mp hrun
  obtain ⟨history, hreached⟩ := (Run.of_replay (.opened .none) hreplay).reached
  rw [hrunning] at hreached
  cases answer with
  | ok answer => cases hfailed
  | error failure =>
    have hsweep : bindsNewChild ≠ .sweep := nofun
    obtain ⟨g, orphan, hfirst, _, hwidth, _, _, hleft, hwork⟩ :=
      Service.failure_untraced hreached hsweep hserve
    have hone : g.first = 1 := by
      rw [hfirst] at hcounter
      exact Option.some.inj (of_decide_eq_true hcounter)
    rcases hleft with ⟨_, hcontexts⟩ | ⟨_, horphan, _⟩
    · rw [Disk.contains_eq, hcontexts, ← Disk.contains_eq] at hstored
      rw [hstored] at habsent
      cases habsent
    · have hkey : orphan = some ⟨"NC1"⟩ := by
        rw [horphan, hone]
        decide
      subst hkey
      have hlimit : 3 < Counter.limit := by decide
      have hroom : g.Room (g.first + 1) := by
        have hwidth : g.width ≤ 1 := hwidth
        exact .inr (by omega)
      obtain ⟨entries, entries', hentries, hentries', hfollows⟩ :=
        hwork [.newContext, .contextCount, .sweep] hroom
      exact ⟨service, now, earlier, failure, t, g, entries, entries', hreplay, hrunning, hserve,
        hentries, hentries', hfollows⟩

/-- A failure can make a difference to what is done later when the numbers are all but used up:
the number that it has spent may be the last. -/
theorem Service.failure_spends_last : ¬ ∀ (fails : StoreCall → Nat → Bool) (service : Service)
    (s t u : Server) (history : History) (failure : Failure) (answer : Answer),
    Reached fails (some service) s history →
    (Task.newContext.request service).serve s = some (.error failure, t) →
    (Task.newContext.request service).serve s.calm = some (.ok answer, u) →
    ∃ answer u, (Task.newContext.request service).serve t.calm = some (.ok answer, u) := by
  intro h
  have hlimit : 4 < Counter.limit := by decide
  obtain ⟨n, hn⟩ : ∃ n, n + 3 = Counter.limit := ⟨Counter.limit - 3, by omega⟩
  obtain ⟨service, s, history, hreached, hloading, hkeyed⟩ := Reached.unloading n (by omega)
  have hsettled := hreached.settled
  obtain ⟨result, t, hserve, _⟩ := Task.newContext.serves service hsettled.rest
  obtain ⟨⟨failure, rfl⟩, hcounter⟩ := newContext_unloading hloading hsettled.rest.ready
    hsettled.sound hkeyed (by omega) hserve
  -- without the failure there is one number left
  obtain ⟨result, u, hmade, hleft⟩ := hsettled.calm.makes hkeyed service
  obtain ⟨answer, rfl⟩ := hleft.mpr (by omega)
  obtain ⟨answer', u', hmade'⟩ := h _ service s t u history failure answer hreached hserve hmade
  -- and after it there is none
  have hlatest := hreached.task hserve
  obtain ⟨m, hm, _⟩ := hlatest.keyed
  have hnext : m = n + 2 := Except.ok.inj (hm.counter.symm.trans hcounter)
  obtain ⟨_, _, hserve', hnone⟩ := hlatest.settled.calm.makes hm service
  cases hmade'.symm.trans hserve'
  have hlt := hnone.mp ⟨answer', rfl⟩
  omega

end Naming
