import Mathlib.Data.List.TakeWhile
import Naming.Proofs.GateDiscipline
import Naming.Proofs.Keys

namespace Naming

variable {α β : Type}

namespace Action

/-- Steps that leave the root its record and its mark. They write and keep only regular bindings,
and they mark no context as unbound that has a number below `n`. -/
def SparesRoot (root : ContextKey) (n : Nat) : Action → Prop
  | settle _ kept => ∀ bindings, kept = some bindings → bindings.Regular
  | save _ bindings => bindings.Regular
  | remove key => key ≠ root
  | setRoot _ => False
  | markUnbound key => ¬ key.Below n
  | _ => True

/-- What a step may answer where all bindings are regular and the counter is past `n`. -/
def Expects (n : Nat) : (a : Action) → a.Result → Prop
  | resident _, kept => ∀ bindings, kept = some bindings → bindings.Regular
  | load _, loaded => ∀ bindings, loaded = .ok (some bindings) → bindings.Regular
  | allocate, handed => ∀ key, handed = .ok key → ¬ key.Below n
  | _, _ => True

end Action

/-- The root is recorded and has its record, no record is damaged, and the counter is past `n`. -/
structure Disk.Rooted (root : ContextKey) (n : Nat) (d : Disk) : Prop where
  sound : d.Sound
  recorded : d.root? = .ok (some root)
  stored : d.contains root = true
  counted : ∃ m, n ≤ m ∧ d.highWaterMark = .ok m

namespace Disk.Rooted

variable {root key : ContextKey} {n : Nat} {d e : Disk}

theorem save (h : d.Rooted root n) {bindings : BindingSet} (hb : bindings.Regular)
    (hd : d.save key bindings = .ok e) : e.Rooted root n := by
  have hmarks := Disk.marks_save hd
  refine ⟨h.sound.save hb hd, (Disk.root?_congr hmarks).trans h.recorded, ?_, ?_⟩
  · by_cases hkey : root = key
    · subst hkey
      exact Disk.contains_of_load (Disk.load_save hd)
    · have hstored := h.stored
      rw [Disk.contains_eq] at hstored ⊢
      rwa [Disk.get?_save hd, if_neg fun he => hkey (Disk.place_injective he)]
  · rw [Disk.highWaterMark_congr hmarks]
    exact h.counted

theorem remove (h : d.Rooted root n) (hkey : key ≠ root) : (d.remove key).Rooted root n := by
  refine ⟨h.sound.remove key, h.recorded, ?_, h.counted⟩
  rw [Disk.contains_remove, h.stored]
  simpa using hkey.symm

theorem allocate (h : d.Rooted root n) (hd : d.allocate = .ok (key, e)) :
    ¬ key.Below n ∧ e.Rooted root n := by
  obtain ⟨m, hle, hm⟩ := h.counted
  obtain ⟨m', hcounter, hkey, hnext, hcontexts⟩ := Disk.allocate_ok hd
  rw [hm] at hcounter
  cases hcounter
  refine ⟨hkey ▸ ContextKey.not_below hle, h.sound.congr hcontexts,
    (Disk.allocate_root hd).trans h.recorded, ?_, m + 1, by omega, hnext⟩
  rw [Disk.contains_eq, hcontexts]
  exact h.stored

theorem load (h : d.Rooted root n) : ∃ bindings, d.load root = .ok (some bindings) :=
  h.sound.load_contained h.stored

end Disk.Rooted

/-- What is kept in memory is regular, but need not be what the records hold. No context counts as
unbound that has a number below `n`. -/
structure Memory.Regular (n : Nat) (m : Memory) : Prop where
  resident : ∀ key bindings, m.resident.get? key = some bindings → bindings.Regular
  unbound : ∀ key ∈ m.unbound, ¬ key.Below n

/-- A server on a disk with this root. -/
structure Server.Rooted (root : ContextKey) (n : Nat) (s : Server) : Prop where
  disk : s.store.disk.Rooted root n
  memory : s.memory.Regular n

namespace Action.SparesRoot

variable {root : ContextKey} {n : Nat} {a : Action} {s t : Server} {r : a.Result}

theorem disk (h : a.SparesRoot root n) (hs : s.store.disk.Rooted root n)
    (hp : a.perform? s = some (r, t)) : t.store.disk.Rooted root n := by
  cases performs_alters hp with
  | nothing same => exact same ▸ hs
  | saved saved => exact hs.save h saved
  | removed removed => exact removed ▸ hs.remove h
  | allocated allocated => exact (hs.allocate allocated).2
  | rooted => exact absurd h id

theorem memory (h : a.SparesRoot root n) (hs : s.memory.Regular n)
    (hp : a.perform? s = some (r, t)) : t.memory.Regular n := by
  have hpart := performs_part hp
  cases a with
  | settle key kept =>
    obtain ⟨u, hu, _, _, _, hkept⟩ := performs_settle key kept s
    cases hu.symm.trans hp
    refine ⟨fun other bindings hb => ?_, hpart.unbound nofun ▸ hs.unbound⟩
    rcases hkept other bindings hb with ⟨_, hsame⟩ | ⟨_, hbefore⟩
    · exact h bindings hsame
    · exact hs.resident other bindings hbefore
  | markUnbound key =>
    cases hp
    refine ⟨hs.resident, fun other ho => ?_⟩
    rcases List.mem_cons.mp ho with rfl | ho
    · exact h
    · exact hs.unbound other (List.mem_filter.mp ho).1
  | clearUnbound key =>
    cases hp
    exact ⟨hs.resident, fun other ho => hs.unbound other (List.mem_filter.mp ho).1⟩
  | _ => exact ⟨hpart.resident nofun ▸ hs.resident, hpart.unbound nofun ▸ hs.unbound⟩

/-- A step that spares the root keeps it its record and its mark, and answers as expected. -/
theorem performs (h : a.SparesRoot root n) (hs : s.Rooted root n)
    (hp : a.perform? s = some (r, t)) : a.Expects n r ∧ t.Rooted root n := by
  refine ⟨?_, h.disk hs.disk hp, h.memory hs.memory hp⟩
  cases a with
  | resident key =>
    cases hp
    exact hs.memory.resident key
  | load key =>
    cases hp
    exact fun bindings hl => hs.disk.sound.regular (Store.load_ok hl)
  | allocate =>
    rintro key rfl
    rcases performs_allocate_cases hp with ⟨_, ⟨⟩, hd⟩ | ⟨_, ⟨⟩, _⟩
    exact (hs.disk.allocate hd).1
  | _ => trivial

end Action.SparesRoot

namespace Job

/-- A job all of whose steps spare the root and that ends only as it may, as long as it is told what
is expected. -/
def Abides (root : ContextKey) (n : Nat) (ends : α → Prop) : Job α → Prop
  | done a => ends a
  | step action next =>
    action.SparesRoot root n ∧ ∀ r, action.Expects n r → (next r).Abides root n ends

variable {root : ContextKey} {n : Nat}

theorem Abides.bind {ends : α → Prop} {ends' : β → Prop} {t : Job α} {f : α → Job β}
    (h : t.Abides root n ends) (hf : ∀ a, ends a → (f a).Abides root n ends') :
    (t.bind f).Abides root n ends' := by
  induction t with
  | done a => exact hf a h
  | step action next ih => exact ⟨h.1, fun r hr => ih r (h.2 r hr)⟩

theorem Abides.mono {ends ends' : α → Prop} {t : Job α} (h : t.Abides root n ends)
    (he : ∀ a, ends a → ends' a) : t.Abides root n ends' := by
  induction t with
  | done a => exact he a h
  | step action next ih => exact ⟨h.1, fun r hr => ih r (h.2 r hr)⟩

/-- What its steps keep, a job that ends has kept. -/
theorem Abides.run {ends : α → Prop} {t : Job α} {s s' : Server} {a : α}
    (h : t.Abides root n ends) (hs : s.Rooted root n) (hr : t.run s = some (a, s')) :
    ends a ∧ s'.Rooted root n := by
  induction t generalizing s with
  | done b =>
    cases hr
    exact ⟨h, hs⟩
  | step action next ih =>
    simp only [Job.run] at hr
    cases hp : action.perform? s with
    | none => simp [hp] at hr
    | some p =>
      simp only [hp] at hr
      obtain ⟨hexpected, hrooted⟩ := h.1.performs hs hp
      exact ih p.1 (h.2 p.1 hexpected) hrooted hr

end Job

/-- A request that spares the root, with what it comes to when it succeeds. -/
def Request.Abides (root : ContextKey) (n : Nat) (ends : α → Prop) (r : Request α) : Prop :=
  Job.Abides root n (fun result => ∀ a, result = .ok a → ends a) r

namespace Request.Abides

variable {root : ContextKey} {n : Nat} {ends : α → Prop} {ends' : β → Prop} {r : Request α}

theorem done {result : Except Failure α} (h : ∀ a, result = .ok a → ends a) :
    (ofExcept result).Abides root n ends := h

theorem pure {a : α} (h : ends a) : (Pure.pure a : Request α).Abides root n ends := by
  intro b hb
  cases hb
  exact h

theorem throw (failure : Failure) :
    (MonadExcept.throw failure : Request α).Abides root n ends := nofun

theorem mono {ends' : α → Prop} (h : r.Abides root n ends) (he : ∀ a, ends a → ends' a) :
    r.Abides root n ends' :=
  Job.Abides.mono h fun _ hresult a ha => he a (hresult a ha)

theorem bind {f : α → Request β} (h : r.Abides root n ends)
    (hf : ∀ a, ends a → (f a).Abides root n ends') : (r >>= f).Abides root n ends' := by
  refine Job.Abides.bind h fun result hresult => ?_
  cases result with
  | error failure => exact nofun
  | ok a => exact hf a (hresult a rfl)

theorem attempt (h : r.Abides root n ends) : r.attempt.Abides root n fun _ => True :=
  Job.Abides.bind h fun _ _ => fun _ _ => trivial

theorem act {action : Action} (h : action.SparesRoot root n) :
    (Request.act action).Abides root n (action.Expects n) := by
  refine ⟨h, fun r hr a ha => ?_⟩
  cases ha
  exact hr

/-- A step whose answer says nothing about the root. -/
theorem act_only {action : Action} (h : action.SparesRoot root n) :
    (Request.act action).Abides root n fun _ => True :=
  (act h).mono fun _ _ => trivial

theorem ofStorage {t : Job (Except StorageFailure α)}
    (h : t.Abides root n fun result => ∀ a, result = .ok a → ends a) :
    (Request.ofStorage t).Abides root n ends := by
  refine Job.Abides.bind h fun result hresult => ?_
  cases result with
  | error failure => exact nofun
  | ok a => exact pure (hresult a rfl)

theorem gated (access : Access) (h : r.Abides root n ends) :
    (r.gated access).Abides root n ends := by
  refine ⟨trivial, fun _ _ => ?_⟩
  change Job.Abides root n _ (Job.bind r fun result => .step (.leaveGate access) fun _ =>
    .done result)
  exact Job.Abides.bind h fun result hresult => ⟨trivial, fun _ _ => hresult⟩

end Request.Abides

namespace Active

variable {root : ContextKey} {n : Nat} {ends : α → Prop} {key : ContextKey}
  {operation : Operation} {intent : Intent}

/-- What a use leaves: the context that it had, with regular bindings. -/
def Keeps (c : Active) (ends : α → Prop) (p : Except Failure α × Active) : Prop :=
  (∀ a, p.1 = .ok a → ends a) ∧ p.2.bindings.Regular ∧ p.2.key = c.key ∧ p.2.access = c.access

/-- An activation spares the root if the use does, whatever regular bindings it finds. -/
theorem during_abides {use : Use α}
    (hu : ∀ c : Active, c.bindings.Regular → c.key = key →
      c.access = accessFor operation intent → (use.run.run c).Abides root n (Keeps c ends)) :
    (during key operation intent use).Abides root n ends := by
  unfold Request.Abides
  rw [during_eq]
  refine ⟨trivial, fun id _ => ⟨trivial, fun _ _ => ?_⟩⟩
  have hfound : (find key intent).run.Abides root n
      fun found => ∀ p, found = .ok p → p.1.Regular := by
    rw [job_find]
    refine ⟨trivial, fun kept hkept => ?_⟩
    cases kept with
    | some bindings =>
      intro p hp
      cases hp
      exact hkept bindings rfl
    | none =>
      refine ⟨trivial, fun loaded hloaded => ?_⟩
      intro p hp
      rcases loaded with failure | found
      · cases hp
      rcases found with _ | bindings
      · cases intent with
        | existing => cases hp
        | create =>
          cases hp
          exact BindingSet.regular_empty
      · cases hp
        exact hloaded bindings rfl
  refine Job.Abides.bind hfound fun found hregular => ?_
  rcases found with failure | ⟨bindings, dirty⟩
  · exact ⟨trivial, fun _ _ => ⟨trivial, fun _ _ => nofun⟩⟩
  · refine ⟨trivial, fun _ _ => ?_⟩
    refine Job.Abides.bind (hu _ (hregular _ rfl) rfl rfl) fun p hp => ?_
    refine ⟨fun kept hkept => ?_, fun _ _ => ⟨trivial, fun _ _ => ⟨trivial, fun _ _ =>
      ⟨trivial, fun _ _ => hp.1⟩⟩⟩⟩
    split at hkept
    · cases hkept
    · cases hkept
      exact hp.2.1

theorem look_abides (view : BindingSet → Except Failure α) {c : Active}
    (hc : c.bindings.Regular) : ((look view).run.run c).Abides root n (Keeps c fun _ => True) := by
  rw [job_look]
  exact ⟨fun _ _ => trivial, hc, rfl, rfl⟩

/-- A use goes on with the context that it has. -/
theorem bind_abides {use : Use α} {f : α → Use β} {ends' : β → Prop} {c : Active}
    (h : (use.run.run c).Abides root n (Keeps c ends))
    (hf : ∀ a b, ends a → b.bindings.Regular → b.key = c.key → b.access = c.access →
      ((f a).run.run b).Abides root n (Keeps b ends')) :
    ((use >>= f).run.run c).Abides root n (Keeps c ends') := by
  refine Job.Abides.bind h fun p hp => ?_
  obtain ⟨result, b⟩ := p
  obtain ⟨hends, hregular, hkey, haccess⟩ := hp
  cases result with
  | error failure => exact ⟨nofun, hregular, hkey, haccess⟩
  | ok a =>
    have hnext := hf a b (hends a rfl) hregular hkey haccess
    unfold Keeps at hnext ⊢
    rwa [hkey, haccess] at hnext

theorem Edits.abides {adds : Bool} {use : Use α} (h : Edits adds use) {c : Active}
    (hc : c.bindings.Regular) (haccess : c.access = .exclusive) :
    (use.run.run c).Abides root n (Keeps c fun _ => True) := by
  induction h generalizing c with
  | bind first next ihFirst ihNext =>
    exact bind_abides (ihFirst hc haccess) fun a b _ hb _ he => ihNext a hb (he.trans haccess)
  | look view => exact look_abides view hc
  | demandRecord target =>
    have hsame : ∀ result : Except Failure Unit, Keeps c (fun _ => True) (result, c) :=
      fun _ => ⟨fun _ _ => trivial, hc, rfl, rfl⟩
    cases target with
    | object reference => exact hsame _
    | context key =>
      rw [job_demandRecord]
      split
      · exact hsame _
      · refine ⟨trivial, fun r _ => ?_⟩
        rcases r with failure | found
        · exact hsame _
        · cases found <;> exact hsame _
  | edit regular lessens =>
    rw [job_edit haccess]
    split
    · exact ⟨fun _ _ => trivial, hc, rfl, rfl⟩
    · rename_i hchange
      exact ⟨fun _ _ => trivial, regular _ _ _ hc hchange, rfl, rfl⟩
  | commit =>
    rw [job_commit haccess]
    refine ⟨hc, fun r _ => ?_⟩
    cases r <;> exact ⟨fun _ _ => trivial, hc, rfl, rfl⟩

theorem remove_abides {c : Active} (hc : c.bindings.Regular) (haccess : c.access = .exclusive)
    (hkey : c.key ≠ root) : (remove.run.run c).Abides root n (Keeps c fun _ => True) := by
  rw [job_remove haccess]
  refine ⟨hkey, fun r _ => ?_⟩
  cases r <;> exact ⟨fun _ _ => trivial, hc, rfl, rfl⟩

end Active

section

variable {root : ContextKey} {n : Nat}

theorem createContext_abides : createContext.Abides root n fun key => ¬ key.Below n := by
  refine .gated _ (.bind (.ofStorage ⟨trivial, fun r hr => hr⟩) fun key hkey => ?_)
  have hcommit : (Active.during key .newContext .create Active.commit).Abides root n
      fun _ => True :=
    Active.during_abides fun c hc _ haccess =>
      Active.Edits.abides (.commit : Active.Edits false _) hc haccess
  exact .bind hcommit fun _ _ => .bind (.act trivial) fun _ _ => .pure hkey

/-- A request that keeps to the rules of a service with this root spares the root. -/
theorem Civil.abides {inside makes : Bool} {r : Request α} (h : Civil root inside makes r) :
    r.Abides root n fun _ => True := by
  induction h with
  | done result => exact .done fun _ _ => trivial
  | bind first next quiet ihFirst ihNext => exact .bind ihFirst fun a _ => ihNext a
  | map first f ih => exact .bind ih fun _ _ => .pure trivial
  | attempt tried ih => exact .attempt ih
  | gated within ih => exact .gated _ ih
  | note event => exact .act_only trivial
  | clear key => exact .act_only trivial
  | keys => exact .ofStorage ⟨trivial, fun _ _ _ _ => trivial⟩
  | allocate => exact .ofStorage ⟨trivial, fun _ _ _ _ => trivial⟩
  | create key =>
    exact Active.during_abides fun c hc _ haccess =>
      Active.Edits.abides (.commit : Active.Edits false _) hc haccess
  | createUnbound =>
    exact .gated _ (.bind createContext_abides fun key hkey =>
      .bind (.act hkey) fun _ _ => .pure trivial)
  | look key operation view => exact Active.during_abides fun c hc _ _ => Active.look_abides view hc
  | edit key operation mutating edits permitted =>
    refine Active.during_abides fun c hc _ haccess => edits.abides hc ?_
    rw [haccess]
    simp [Active.accessFor, mutating]
  | remove other view =>
    refine Active.during_abides fun c hc hkey haccess => ?_
    refine Active.bind_abides (Active.look_abides view hc) fun _ b _ hb hsame he => ?_
    exact Active.remove_abides hb (he.trans haccess) fun hroot =>
      other (hkey.symm.trans (hsame.symm.trans hroot))

namespace Sweep

theorem links_abides (key : ContextKey) : (links key).Abides root n fun _ => True := by
  have hlook : (Active.during key .list .existing
      (Active.look fun s => .ok s.contexts)).Abides root n fun _ => True :=
    Active.during_abides fun c hc _ _ => Active.look_abides _ hc
  refine .bind hlook.attempt fun found _ => ?_
  cases found with
  | ok keys => exact .pure trivial
  | error failure => cases failure <;> first | exact .pure trivial | exact .throw _

/-- Whatever a search sees, it has seen what stood in its queue. -/
theorem reach_abides (limit : Nat) (seen queue : List ContextKey) {key : ContextKey}
    (hkey : key ∈ seen ∨ key ∈ queue) :
    (reach limit seen queue).Abides root n fun found => ∀ all, found = some all → key ∈ all := by
  induction limit generalizing seen queue with
  | zero =>
    refine .pure fun all hall => ?_
    split at hall
    · rename_i hqueue
      cases hall
      rcases hkey with hseen | hqueued
      · exact hseen
      · exact List.contains_iff_mem.mp (List.all_eq_true.mp hqueue key hqueued)
    · cases hall
  | succ limit ih =>
    have hdropped : key ∈ seen ∨ key ∈ queue.dropWhile seen.contains := by
      rcases hkey with hseen | hqueued
      · exact .inl hseen
      · by_cases hseen : key ∈ seen
        · exact .inl hseen
        · rw [← List.takeWhile_append_dropWhile (p := seen.contains) (l := queue)] at hqueued
          rcases List.mem_append.mp hqueued with htaken | hleft
          · exact .inl (List.contains_iff_mem.mp (List.mem_takeWhile_imp htaken))
          · exact .inr hleft
    unfold reach
    split
    · rename_i hempty
      rw [hempty] at hdropped
      refine .pure fun all hall => ?_
      cases hall
      exact hdropped.resolve_right List.not_mem_nil
    · rename_i first rest hrest
      rw [hrest] at hdropped
      refine .bind (links_abides first) fun next _ => ih _ _ ?_
      rcases hdropped with hseen | hqueued
      · exact .inl (List.mem_cons_of_mem _ hseen)
      · rcases List.mem_cons.mp hqueued with rfl | hqueued
        · exact .inl List.mem_cons_self
        · exact .inr (List.mem_append_left _ hqueued)

theorem removeOthers_abides {reachable : List ContextKey} (hroot : root ∈ reachable)
    (keys : List ContextKey) : (removeOthers reachable keys).Abides root n fun _ => True := by
  induction keys with
  | nil => exact .pure trivial
  | cons key rest ih =>
    refine .bind (.act trivial) fun unbound _ => ?_
    split
    · exact ih
    · rename_i hcond
      simp only [Bool.or_eq_true, List.contains_iff_mem, not_or] at hcond
      have hkey : key ≠ root := fun he => hcond.1 (he ▸ hroot)
      have hremove : (Active.during key .destroy .existing Active.remove).Abides root n
          fun _ => True :=
        Active.during_abides fun c hc hc' haccess =>
          Active.remove_abides hc haccess (hc' ▸ hkey)
      exact .bind hremove fun _ _ => .bind ih fun _ _ => .pure trivial

end Sweep

/-- A sweep spares the root, as its search has seen that if it has seen anything. -/
theorem Service.sweep_abides (service : Service) :
    service.sweep.Abides service.root n fun _ => True := by
  refine .gated _ (.bind (.act trivial) fun limit _ => ?_)
  refine .bind (Sweep.reach_abides limit [] _ (.inr List.mem_cons_self)) fun found hfound => ?_
  cases found with
  | none => exact .pure trivial
  | some reachable =>
    refine .bind (.ofStorage ⟨trivial, fun _ _ _ _ => trivial⟩) fun keys _ => ?_
    refine .bind (Sweep.removeOthers_abides (hfound reachable rfl) keys) fun removed _ => ?_
    exact .bind (.act_only trivial) fun _ _ => .pure trivial

theorem Task.request_abides (service : Service) (task : Task) :
    (task.request service).Abides service.root n fun _ => True := by
  by_cases hsweep : task = .sweep
  · subst hsweep
    exact .bind service.sweep_abides fun _ _ => .pure trivial
  · exact Civil.abides (request_civil service hsweep : Civil _ false true _)

theorem Service.execute_abides [Drawing] (service : Service) (c : Command) :
    (service.execute c).Abides service.root n fun _ => True := by
  have hrun : (c.run service).Abides service.root n fun _ => True := by
    by_cases hsweep : c = .sweep
    · subst hsweep
      exact .bind service.sweep_abides fun _ _ => .pure trivial
    · exact (Command.run_civil service hsweep).abides
  exact .bind hrun.attempt fun _ _ => .bind (.act_only trivial) fun _ _ => .done fun _ _ => trivial

end

end Naming
