import Naming.Proofs.GateDiscipline
import Naming.Proofs.ClientStandings

namespace Naming

variable {α β : Type}

/-- What a client removes at most, told by how it stands, by the server and by the key. -/
abbrev Allowance := Standing → Server → ContextKey → Prop

namespace Job

/-- A job that takes only permitted steps from where its client stands, whatever others do between
them, and when it is done has come to what is told, on the server as it was last seen and later. A
client that has made a context goes on inside the gate or is done. -/
def Assures (may : Allowance) (told : α → Standing → Server → Prop) :
    Job α → Standing → Server → Prop
  | done a, st, s => ∀ t, st.Sees t → st.Bears s t → told a st t
  | step action next, st, s => ∀ t, st.Sees t → st.Bears s t →
      (st.made = true → 0 < st.sharing) ∧ action.Permitted may st t ∧
        ∀ r u, action.perform? t = some (r, u) →
          (next r).Assures may told (st.after action r) u

variable {may : Allowance} {told : α → Standing → Server → Prop}
  {told' : β → Standing → Server → Prop} {st : Standing} {s t : Server} {job : Job α}

theorem Assures.of_later
    (h : ∀ t, st.Sees t → st.Bears s t → job.Assures may told st t) :
    job.Assures may told st s := by
  cases job with
  | done a => exact fun t hs hb => h t hs hb t hs (.refl st t)
  | step action next => exact fun t hs hb => h t hs hb t hs (.refl st t)

theorem Assures.later (h : job.Assures may told st s) (hst : st.Bears s t) :
    job.Assures may told st t := by
  cases job with
  | done a => exact fun u hs hb => h u hs (hst.trans hb)
  | step action next => exact fun u hs hb => h u hs (hst.trans hb)

theorem Assures.bind {f : α → Job β} (h : job.Assures may told st s)
    (hf : ∀ a st t, st.Sees t → told a st t → (f a).Assures may told' st t) :
    (job.bind f).Assures may told' st s := by
  induction job generalizing st s with
  | done a => exact .of_later fun t hs hb => hf a st t hs (h t hs hb)
  | step action next ih =>
    intro t hs hb
    obtain ⟨hgo, hpermitted, hnext⟩ := h t hs hb
    exact ⟨hgo, hpermitted, fun r u hp => ih r (hnext r u hp)⟩

theorem Assures.mono {told' : α → Standing → Server → Prop} (h : job.Assures may told st s)
    (ht : ∀ a st t, st.Sees t → told a st t → told' a st t) : job.Assures may told' st s := by
  induction job generalizing st s with
  | done a => exact fun t hs hb => ht a st t hs (h t hs hb)
  | step action next ih =>
    intro t hs hb
    obtain ⟨hgo, hpermitted, hnext⟩ := h t hs hb
    exact ⟨hgo, hpermitted, fun r u hp => ih r (hnext r u hp)⟩

/-- One step, after which time has passed. -/
theorem Assures.step {action : Action} {next : action.Result → Job α}
    (hgo : st.made = true → 0 < st.sharing)
    (h : ∀ t, st.Sees t → st.Bears s t → action.Permitted may st t ∧ ∀ r u,
      action.perform? t = some (r, u) → s.Onward st.Calm u →
        (next r).Assures may told (st.after action r) u) :
    (Job.step action next).Assures may told st s := by
  intro t hs hb
  obtain ⟨hpermitted, hnext⟩ := h t hs hb
  exact ⟨hgo, hpermitted, fun r u hp =>
    hnext r u hp (hb.toOnward.trans (hpermitted.onward hs hp))⟩

end Job

namespace Active

variable {may : Allowance} {st : Standing} {s t : Server} {key : ContextKey} {id : Nat}
  {access : Access} {intent : Intent} {operation : Operation}

/-- What an activation may find under a key: a record, nothing, or a store that refuses. -/
inductive Finds (key : ContextKey) (intent : Intent) (s : Server) :
    Except Failure (BindingSet × Bool) → Prop
  | stored {bindings : BindingSet} (load : s.store.disk.load key = .ok (some bindings)) :
      Finds key intent s (.ok (bindings, false))
  | fresh (load : s.store.disk.load key = .ok none) (create : intent = .create) :
      Finds key intent s (.ok (.empty, true))
  | missing (load : s.store.disk.load key = .ok none) (existing : intent = .existing) :
      Finds key intent s (.error (.noContext key))
  | refused (failure : StorageFailure) (unwilling : ¬ s.store.Willing) :
      Finds key intent s (.error (.ofStorage failure))

/-- What an activation may find depends on the disk and on what is refused. -/
theorem Finds.congr {found : Except Failure (BindingSet × Bool)} (h : Finds key intent s found)
    (hload : t.store.disk.load key = s.store.disk.load key)
    (hfails : t.store.faults.fails = s.store.faults.fails) : Finds key intent t found := by
  cases h with
  | stored load => exact .stored (hload.trans load)
  | fresh load create => exact .fresh (hload.trans load) create
  | missing load existing => exact .missing (hload.trans load) existing
  | refused failure unwilling => exact .refused failure fun hw => unwilling (hfails.symm.trans hw)

theorem Finds.later {found : Except Failure (BindingSet × Bool)} (h : Finds key intent s found)
    (hb : st.Bears s t) (hg : st.grip = .holds key id access) : Finds key intent t found :=
  h.congr (hb.load hg) hb.fails

/-- A load from a sound disk tells whether there is a record, unless it is refused. -/
theorem finds_loaded (hs : s.store.disk.Sound) (key : ContextKey) (intent : Intent) :
    Finds key intent s (match (s.store.load key).1, intent with
      | .error failure, _ => .error (.ofStorage failure)
      | .ok (some bindings), _ => .ok (bindings, false)
      | .ok none, .create => .ok (.empty, true)
      | .ok none, .existing => .error (.noContext key)) := by
  cases hl : (s.store.load key).1 with
  | error failure =>
    refine .refused _ fun hwilling => ?_
    rw [Store.load_spared (hwilling.spares .load)] at hl
    rcases hs.load_cases key with hnone | ⟨bindings, hsome, _⟩
    · cases hl.symm.trans hnone
    · cases hl.symm.trans hsome
  | ok found =>
    have hload := Store.load_ok hl
    cases found with
    | some bindings => exact .stored hload
    | none =>
      cases intent with
      | existing => exact .missing hload rfl
      | create => exact .fresh hload rfl

theorem find_assures (hg : st.grip = .holds key id access) (htidy : st.tidy = true)
    (hgo : st.made = true → 0 < st.sharing) :
    (find key intent).run.Assures may
      (fun found st' t => st' = st ∧ s.Onward st.Calm t ∧ Finds key intent t found) st s := by
  rw [job_find]
  refine .step hgo fun t hs hb => ⟨.resident key, fun _ u hp honward => ?_⟩
  cases hp
  cases hkept : t.memory.resident.get? key with
  | some bindings =>
    have hload := hs.backed key id access hg (fun _ => htidy) bindings hkept
    refine fun v _ hv => ⟨rfl, honward.trans hv.toOnward, .stored ?_⟩
    exact (hv.load hg).trans hload
  | none =>
    refine .step hgo fun v hs' hb' => ⟨.load key, fun loaded w hp honward' => ?_⟩
    have hfails := (Action.performs_onward hp).fails
    have hloaded : (v.store.load key).1 = loaded ∧
        { v with store := (v.store.load key).2 } = w := Prod.mk.inj (Option.some.inj hp)
    obtain ⟨rfl, rfl⟩ := hloaded
    refine fun x _ hx => ⟨rfl, (honward.trans honward').trans hx.toOnward, ?_⟩
    have hfinds := ((finds_loaded hs'.sound key intent).congr
      (congrArg (Disk.load · key) (v.store.load_disk key)) hfails).later hx hg
    generalize (v.store.load key).1 = loaded at hfinds ⊢
    rcases loaded with failure | found
    · exact hfinds
    · rcases found with _ | bindings
      · cases intent <;> exact hfinds
      · exact hfinds

/-- An active context in the hands of a client that has its lock. -/
structure InHand (c : Active) (st : Standing) (s : Server) : Prop where
  grip : st.grip = .holds c.key c.lock c.access
  stored : c.dirty = false → c.removed = false →
    s.store.disk.load c.key = .ok (some c.bindings)

theorem InHand.later {c : Active} (h : c.InHand st s) (hb : st.Bears s t) : c.InHand st t :=
  ⟨h.grip, fun hd hr => (hb.load h.grip).trans (h.stored hd hr)⟩

/-- What an activation finds is in the hands of its client. -/
theorem Finds.inHand {bindings : BindingSet} {dirty : Bool}
    (h : Finds key intent s (.ok (bindings, dirty)))
    (hg : st.grip = .holds key id access) (operation : Operation) :
    InHand ⟨key, operation, bindings, dirty, false, id, access⟩ st s := by
  refine ⟨hg, fun hd _ => ?_⟩
  cases h with
  | stored load => exact load
  | fresh => cases hd

/-- Who releases a context has nothing of the locks any more. -/
theorem release_assures {c : Active} (h : c.InHand st s) (hgo : st.made = true → 0 < st.sharing) :
    c.release.Assures may
      (fun _ st' t => st' = { st with grip := .free, tidy := true } ∧ s.Onward st.Calm t) st s := by
  change Job.Assures may _ (.step (.settle c.key (if c.dirty || c.removed then none
    else some c.bindings)) fun _ => .step (.note (event "Released context" c.key c.operation []))
      fun _ => .step (.leaveLock c.lock c.access) fun _ => .step (.releaseIdle c.key) fun _ =>
        .done ()) st s
  refine .step hgo fun t _ hb => ⟨.settle h.grip ?_, fun _ u _ hu => ?_⟩
  · intro bindings hkept
    split at hkept
    · cases hkept
    · rename_i hclean
      cases hkept
      simp only [Bool.or_eq_true, not_or, Bool.not_eq_true] at hclean
      exact (h.later hb).stored hclean.1 hclean.2
  refine .step hgo fun _ _ _ => ⟨.note _, fun _ v _ hv => ?_⟩
  refine .step hgo fun _ _ _ => ⟨.leaveLock h.grip rfl, fun _ w _ hw => ?_⟩
  refine .step hgo fun _ _ _ => ⟨.releaseIdle _, fun _ x _ hx => ?_⟩
  exact fun _ _ hy => ⟨rfl, (((hu.trans hv).trans hw).trans hx).trans hy.toOnward⟩

/-- An activation comes to what its use comes to, or to what is told of a failure to find the
context. What is told has to stay true while time passes. -/
theorem during_assures {told : Except Failure α → Standing → Server → Prop} {use : Use α}
    (hg : st.grip = .free) (htidy : st.tidy = true) (hgo : st.made = true → 0 < st.sharing)
    (hfail : ∀ failure t, s.Onward st.Calm t → Finds key intent t (.error failure) →
      told (.error failure) st t)
    (huse : ∀ id t bindings dirty, s.Onward st.Calm t →
      Finds key intent t (.ok (bindings, dirty)) →
      (use.run.run ⟨key, operation, bindings, dirty, false, id,
          accessFor operation intent⟩).Assures may
        (fun p st' u => p.2.InHand st' u ∧ (st'.made = true → 0 < st'.sharing) ∧
          told p.1 { st' with grip := .free, tidy := true } u)
        { st with grip := .holds key id (accessFor operation intent) } t)
    (hlater : ∀ result st' t u, t.Onward st'.Calm u → told result st' t → told result st' u) :
    Job.Assures may told (during key operation intent use) st s := by
  rw [during_eq]
  refine .step hgo fun _ _ _ => ⟨.referLock key hg, fun id t _ ht => ?_⟩
  refine .step hgo fun _ _ _ => ⟨.enterLock _ rfl, fun _ u _ hu => ?_⟩
  refine .bind (find_assures rfl htidy hgo) fun found st' v hv hfound => ?_
  obtain ⟨rfl, hw, hfinds⟩ := hfound
  have honward : s.Onward st.Calm v := (ht.trans hu).trans hw
  cases found with
  | error failure =>
    refine .step hgo fun _ _ _ => ⟨.leaveLock rfl htidy, fun _ x _ hx => ?_⟩
    refine .step hgo fun _ _ _ => ⟨.releaseIdle key, fun _ y _ hy => ?_⟩
    intro z _ hz
    have hback : { st with grip := .free } = st := by
      rw [← hg]
    change told (.error failure) { st with grip := .free } z
    rw [hback]
    exact hlater _ st v z ((hx.trans hy).trans hz.toOnward) (hfail failure v honward hfinds)
  | ok found =>
    obtain ⟨bindings, dirty⟩ := found
    refine .step hgo fun _ _ hb => ⟨.note _, fun _ x hp hx => ?_⟩
    have hfinds : Finds key intent x (.ok (bindings, dirty)) := by
      cases hp
      exact (hfinds.later hb rfl).congr rfl rfl
    refine .bind (huse id x bindings dirty (honward.trans hx) hfinds) ?_
    rintro ⟨result, c⟩ st' y hy ⟨hhand, hgo', htold⟩
    refine .bind (release_assures hhand hgo') ?_
    rintro _ _ z _ ⟨rfl, hz⟩
    intro w _ hw
    exact hlater result _ y w (hz.trans hw.toOnward) htold

/-- An active context that its client has for itself, with bindings that it may save. -/
structure Fits (c : Active) (st : Standing) (s : Server) : Prop extends c.InHand st s where
  alone : c.access = .exclusive
  regular : c.bindings.Regular
  lessens : 0 < st.sharing ∨ s.store.disk.contains c.key = true ∧
    c.bindings.contexts ⊆ s.store.disk.links c.key

/-- Whether a context fits depends on what its client has and on its record. -/
theorem Fits.congr {c : Active} {st' : Standing} (h : c.Fits st s) (hgrip : st'.grip = st.grip)
    (hsharing : st'.sharing = st.sharing)
    (hrecord : t.store.disk.contexts.get? (Disk.place c.key) =
      s.store.disk.contexts.get? (Disk.place c.key)) : c.Fits st' t := by
  refine ⟨⟨hgrip.trans h.grip, fun hd hr => ?_⟩, h.alone, h.regular, ?_⟩
  · rw [Disk.load_congr hrecord]
    exact h.stored hd hr
  · rw [hsharing, Disk.contains_eq, Disk.links_congr hrecord, hrecord, ← Disk.contains_eq]
    exact h.lessens

theorem Fits.later {c : Active} (h : c.Fits st s) (hb : st.Bears s t) : c.Fits st t :=
  h.congr rfl rfl (hb.held _ _ _ h.grip)

/-- What a use leaves that only edits: the context still fits, and nothing changed for the client
but that memory may have become untrue about the context. -/
def Leaves (st : Standing) (p : Except Failure α × Active) (st' : Standing) (s : Server) : Prop :=
  p.2.Fits st' s ∧ ∃ tidy, st' = { st with tidy := tidy }

/-- So it may be changed and saved by who has it alone, if it was there before or may be made. -/
theorem Finds.fits {bindings : BindingSet} {dirty : Bool}
    (h : Finds key intent s (.ok (bindings, dirty))) (hs : s.store.disk.Sound)
    (hg : st.grip = .holds key id .exclusive) (hcreate : intent = .create → 0 < st.sharing)
    (operation : Operation) :
    Fits ⟨key, operation, bindings, dirty, false, id, .exclusive⟩ st s := by
  refine ⟨h.inHand hg operation, rfl, ?_, ?_⟩
  · cases h with
    | stored load => exact hs.regular load
    | fresh => exact BindingSet.regular_empty
  · cases h with
    | stored load =>
      exact .inr ⟨Disk.contains_of_load load, Disk.links_of_load load ▸ List.Subset.refl _⟩
    | fresh load create => exact .inl (hcreate create)

theorem commit_assures {c : Active} (h : c.Fits st s) (hgo : st.made = true → 0 < st.sharing) :
    (commit.run.run c).Assures may (Leaves st) st s := by
  rw [job_commit h.alone]
  refine .step hgo fun t hs hb => ?_
  have hfits := h.later hb
  refine ⟨.save (hfits.alone ▸ hfits.grip) hfits.regular hfits.lessens, fun r u hp _ v _ hv => ?_⟩
  rcases Action.performs_save_cases hp with ⟨rfl, hsaved⟩ | ⟨failure, rfl, hsame⟩
  · have hload : u.store.disk.load c.key = .ok (some c.bindings) := by
      rw [Disk.load_save hsaved, hfits.regular.eq_ofList]
    have hleft : Fits { c with dirty := false } { st with tidy := false } u :=
      ⟨⟨hfits.grip, fun _ _ => hload⟩, hfits.alone, hfits.regular,
        .inr ⟨Disk.contains_of_load hload, Disk.links_of_load hload ▸ List.Subset.refl _⟩⟩
    exact ⟨hleft.later hv, false, rfl⟩
  · have hleft : c.Fits { st with tidy := false } u := hfits.congr rfl rfl (by rw [hsame])
    exact ⟨hleft.later hv, false, rfl⟩

theorem demandRecord_assures (target : Target) {c : Active} (h : c.Fits st s)
    (hgo : st.made = true → 0 < st.sharing) :
    ((Context.demandRecord target).run.run c).Assures may (Leaves st) st s := by
  have hsame : ∀ result : Except Failure Unit,
      (Job.done (result, c)).Assures may (Leaves st) st s :=
    fun _ _ _ ht => ⟨h.later ht, st.tidy, rfl⟩
  cases target with
  | object reference => exact hsame _
  | context key =>
    rw [job_demandRecord]
    split
    · exact hsame _
    · refine .step hgo fun t _ hb => ⟨.contains key, fun r u hp _ v _ hv => ?_⟩
      have hleft : c.Fits st u := by
        refine (h.later hb).congr rfl rfl ?_
        cases Action.performs_writes hp with
        | nothing same => rw [same]
      rcases r with failure | found
      · exact ⟨hleft.later hv, st.tidy, rfl⟩
      · cases found <;> exact ⟨hleft.later hv, st.tidy, rfl⟩

theorem Edits.assures {adds : Bool} {use : Use α} (h : Edits adds use) {c : Active}
    (hfits : c.Fits st s) (hgo : st.made = true → 0 < st.sharing)
    (hadds : adds = true → 0 < st.sharing) :
    (use.run.run c).Assures may (Leaves st) st s := by
  induction h generalizing c st s with
  | bind first next ihFirst ihNext =>
    refine .bind (ihFirst hfits hgo hadds) ?_
    rintro ⟨result, b⟩ st' t _ ⟨hleft, tidy, rfl⟩
    cases result with
    | error failure => exact fun u _ hu => ⟨hleft.later hu, tidy, rfl⟩
    | ok a =>
      refine (ihNext a hleft hgo hadds).mono ?_
      rintro p _ u _ ⟨hlast, tidy', rfl⟩
      exact ⟨hlast, tidy', rfl⟩
  | look view =>
    rw [job_look]
    exact fun t _ ht => ⟨hfits.later ht, st.tidy, rfl⟩
  | demandRecord target => exact demandRecord_assures target hfits hgo
  | edit regular lessens =>
    rw [job_edit hfits.alone]
    intro t _ ht
    have hlater := hfits.later ht
    split
    · exact ⟨⟨⟨hlater.grip, nofun⟩, hlater.alone, hlater.regular, hlater.lessens⟩, st.tidy, rfl⟩
    · rename_i a bindings hchange
      refine ⟨⟨⟨hlater.grip, nofun⟩, hlater.alone, regular _ _ _ hlater.regular hchange, ?_⟩,
        st.tidy, rfl⟩
      cases adds with
      | true => exact .inl (hadds rfl)
      | false =>
        refine hlater.lessens.imp_right fun ⟨hstored, hlinks⟩ => ⟨hstored, ?_⟩
        exact List.Subset.trans (lessens rfl _ _ _ hchange) hlinks
  | commit => exact commit_assures hfits hgo

/-- What a use leaves that is to remove a context: the record is gone, or the store refuses. -/
inductive Removes (key : ContextKey) (st : Standing) (s : Server) :
    Except Failure α → Standing → Prop
  | gone (a : α) (absent : s.store.disk.contains key = false) :
      Removes key st s (.ok a) { st with tidy := false, taken := key :: st.taken }
  | refused (failure : Failure) (unwilling : ¬ s.store.Willing) :
      Removes key st s (.error failure) { st with tidy := false }

theorem remove_assures {c : Active} (h : c.InHand st s) (halone : c.access = .exclusive)
    (hload : s.store.disk.load c.key = .ok (some c.bindings))
    (hgo : st.made = true → 0 < st.sharing)
    (hmay : ∀ t, st.Sees t → s.Onward st.Calm t → may st t c.key) :
    (remove.run.run c).Assures may
      (fun p st' t => p.2.InHand st' t ∧ s.Onward st.Calm t ∧ Removes c.key st t p.1 st') st s := by
  rw [job_remove halone]
  refine .step hgo fun t hs hb => ⟨.remove (halone ▸ h.grip) (hmay t hs hb.toOnward), ?_⟩
  intro r u hp hu v _ hv
  have hstored : t.store.disk.contains c.key = true :=
    Disk.contains_of_load ((hb.load h.grip).trans hload)
  rcases Action.performs_remove_cases hp with
    ⟨rfl, hremoved⟩ | ⟨failure, rfl, hsame, hrefused⟩
  · rw [hstored] at hv ⊢
    refine ⟨⟨h.grip, nofun⟩, hu.trans hv.toOnward, .gone _ ?_⟩
    have hrecord := hv.held _ _ _ h.grip
    rw [Disk.contains_eq, hrecord, ← Disk.contains_eq, hremoved, Disk.contains_remove]
    simp
  · have hleft : c.InHand { st with tidy := false } u :=
      ⟨h.grip, fun hd hr => (congrArg (Disk.load · c.key) hsame).trans ((h.later hb).stored hd hr)⟩
    refine ⟨hleft.later hv, hu.trans hv.toOnward, .refused _ fun hwilling => hrefused ?_⟩
    have hfails := hv.fails.trans (Action.performs_onward hp).fails
    exact hfails.symm.trans hwilling

end Active

/-- A client that has nothing of the locks, has not closed the gate, and may take steps. -/
structure Standing.Ready (st : Standing) : Prop where
  free : st.grip = .free
  tidy : st.tidy = true
  before : st.closing = .before
  goes : st.made = true → 0 < st.sharing

/-- How a client stands after a request: as before, but that it may have removed contexts, and made
one if the request may make any. -/
structure Standing.Returns (st : Standing) (makes : Bool) (st' : Standing) : Prop where
  free : st'.grip = .free
  tidy : st'.tidy = true
  sharing : st'.sharing = st.sharing
  closing : st'.closing = st.closing
  quiet : st'.quiet = st.quiet
  made : st'.made = true → st.made = true ∨ makes = true

/-- A client that has nothing of the locks and of the gate. -/
structure Standing.Away (st : Standing) : Prop where
  free : st.grip = .free
  unshared : st.sharing = 0
  outside : st.closing ≠ .inside

namespace Standing.Ready

variable {st st' : Standing} {makes : Bool}

theorem returns (h : st.Ready) (makes : Bool) : st.Returns makes st :=
  ⟨h.free, h.tidy, rfl, rfl, rfl, .inl⟩

/-- Who may have made a context is still inside the gate. -/
theorem after (h : st.Ready) (hr : st.Returns makes st') (hin : makes = true → 0 < st.sharing) :
    st'.Ready :=
  ⟨hr.free, hr.tidy, hr.closing.trans h.before, fun hmade =>
    hr.sharing ▸ (hr.made hmade).elim h.goes hin⟩

theorem away (h : st.Ready) (hr : st.Returns makes st') (hsharing : st.sharing = 0) :
    st'.Away := by
  refine ⟨hr.free, hr.sharing.trans hsharing, ?_⟩
  rw [hr.closing, h.before]
  nofun

end Standing.Ready

namespace Standing.Returns

variable {st st' st'' : Standing} {made makes : Bool}

theorem mono (h : st.Returns made st') (hmakes : made = true → makes = true) :
    st.Returns makes st' :=
  { h with made := fun hmade => (h.made hmade).imp_right hmakes }

theorem trans (h : st.Returns makes st') (h' : st'.Returns makes st'') : st.Returns makes st'' :=
  ⟨h'.free, h'.tidy, h'.sharing.trans h.sharing, h'.closing.trans h.closing,
    h'.quiet.trans h.quiet, fun hmade => (h'.made hmade).elim h.made .inr⟩

end Standing.Returns

namespace Active

variable {may : Allowance} {st : Standing} {s : Server} {key : ContextKey} {operation : Operation}
  {intent : Intent} {makes : Bool}

/-- A use that leaves the client as it was, but for what memory may be trusted about and for what it
has removed, makes an activation after which the client has nothing of the locks. -/
theorem during_returns {use : Use α} (hst : st.Ready)
    (huse : ∀ id t bindings dirty, t.store.disk.Sound → Finds key intent t (.ok (bindings, dirty)) →
      (use.run.run ⟨key, operation, bindings, dirty, false, id,
          accessFor operation intent⟩).Assures may
        (fun p st' u => p.2.InHand st' u ∧ ∃ tidy taken,
          st' = { st with grip := st'.grip, tidy := tidy, taken := taken })
        { st with grip := .holds key id (accessFor operation intent) } t) :
    Job.Assures may (fun _ st' _ => st.Returns makes st')
      (during key operation intent use) st s := by
  refine during_assures hst.free hst.tidy hst.goes (fun _ _ _ _ => hst.returns makes) ?_
    fun _ _ _ _ _ => id
  intro id t bindings dirty _ hfinds
  refine .of_later fun u hu hb => ?_
  refine (huse id u bindings dirty hu.sound (hfinds.later hb rfl)).mono ?_
  rintro ⟨result, c⟩ st' v _ ⟨hhand, tidy, taken, hst'⟩
  refine ⟨hhand, ?_, ?_⟩
  · rw [hst']
    exact hst.goes
  · rw [hst']
    exact ⟨rfl, rfl, rfl, rfl, rfl, .inl⟩

theorem look_returns (hst : st.Ready) (view : BindingSet → Except Failure α) :
    Job.Assures may (fun _ st' _ => st.Returns makes st')
      (during key operation intent (look view)) st s := by
  refine during_returns hst fun id t bindings dirty _ hfinds => ?_
  rw [job_look]
  exact fun u _ hu => ⟨(hfinds.inHand rfl operation).later hu, st.tidy, st.taken, rfl⟩

/-- A use that edits returns when the client has the context alone. -/
theorem edits_returns {adds : Bool} {use : Use α} (h : Edits adds use) (hst : st.Ready)
    (haccess : accessFor operation intent = .exclusive)
    (hcreate : intent = .create → 0 < st.sharing) (hadds : adds = true → 0 < st.sharing) :
    Job.Assures may (fun _ st' _ => st.Returns makes st')
      (during key operation intent use) st s := by
  refine during_returns hst fun id t bindings dirty hsound hfinds => ?_
  rw [haccess]
  have hheld : intent = .create →
      0 < ({ st with grip := .holds key id .exclusive } : Standing).sharing := hcreate
  have hfits := hfinds.fits hsound rfl hheld operation
  refine (h.assures hfits hst.goes hadds).mono ?_
  rintro ⟨result, c⟩ st' u _ ⟨hleft, tidy, rfl⟩
  exact ⟨hleft.toInHand, tidy, st.taken, rfl⟩

/-- A use that looks before it removes ends with the look, or with the removal. -/
theorem removing_assures {c : Active} (h : c.InHand st s) (halone : c.access = .exclusive)
    (hclean : c.dirty = false ∧ c.removed = false) (hgo : st.made = true → 0 < st.sharing)
    (hmay : ∀ t, st.Sees t → s.Onward st.Calm t → may st t c.key)
    (view : BindingSet → Except Failure α) :
    ((look view >>= fun _ => remove).run.run c).Assures may
      (fun p st' t => p.2.InHand st' t ∧ (st' = st ∨ Removes c.key st t p.1 st')) st s := by
  have hlook : ((look view).run.run c).Assures may
      (fun p st' t => p.2 = c ∧ st' = st ∧ s.Onward st.Calm t ∧ c.InHand st t) st s := by
    rw [job_look]
    exact fun t _ ht => ⟨rfl, rfl, ht.toOnward, h.later ht⟩
  refine .bind hlook ?_
  rintro ⟨result, _⟩ _ t _ ⟨rfl, rfl, honward, hhand⟩
  cases result with
  | error failure => exact fun u _ hu => ⟨hhand.later hu, .inl rfl⟩
  | ok a =>
    refine (remove_assures hhand halone (hhand.stored hclean.1 hclean.2) hgo fun u hu hb =>
      hmay u hu (honward.trans hb)).mono ?_
    exact fun p st' u _ ⟨hleft, _, hremoved⟩ => ⟨hleft, .inr hremoved⟩

theorem removing_returns (hst : st.Ready) (view : BindingSet → Except Failure α)
    (hmay : ∀ st t, may st t key) :
    Job.Assures may (fun _ st' _ => st.Returns makes st')
      (during key .destroy .existing (look view >>= fun _ => remove)) st s := by
  refine during_returns hst fun id t bindings dirty _ hfinds => ?_
  have hclean : dirty = false := by
    cases hfinds with
    | stored load => rfl
    | fresh load create => cases create
  have hhand : InHand ⟨key, .destroy, bindings, dirty, false, id, .exclusive⟩
      { st with grip := .holds key id .exclusive } t := hfinds.inHand rfl .destroy
  refine (removing_assures hhand rfl ⟨hclean, rfl⟩ hst.goes (fun _ _ _ => hmay _ _) view).mono ?_
  rintro ⟨result, c⟩ st' u _ ⟨hhand, rfl | hremoved⟩
  · exact ⟨hhand, st.tidy, st.taken, rfl⟩
  · cases hremoved with
    | gone => exact ⟨hhand, false, key :: st.taken, rfl⟩
    | refused => exact ⟨hhand, false, st.taken, rfl⟩

end Active

/-- Requests that a client makes with nothing of the locks, and after which it stands as before. The
first mark tells whether it is among quiet clients, the others whether it is inside the gate and
whether it may make a context. -/
def Request.Behaves (may : Allowance) (quiet inside makes : Bool) (r : Request α) : Prop :=
  ∀ st s, st.Ready → st.quiet = quiet → (inside = true → 0 < st.sharing) →
    Job.Assures may (fun _ st' _ => st.Returns makes st') r st s

namespace Request

variable {may : Allowance} {quiet inside made makes : Bool} {r : Request α} {f : α → Request β}

theorem behaves_ofExcept (result : Except Failure α) :
    (ofExcept result).Behaves may quiet inside makes :=
  fun _ _ hst _ _ _ _ _ => hst.returns makes

theorem Behaves.bind (h : r.Behaves may quiet inside made)
    (hf : ∀ a, (f a).Behaves may quiet inside makes)
    (hmade : made = true → inside = true ∧ makes = true) :
    (r >>= f).Behaves may quiet inside makes := by
  intro st s hst hquiet hin
  refine Job.Assures.bind (h st s hst hquiet hin) fun result st' t _ hback => ?_
  have hreturns := hback.mono fun h => (hmade h).2
  cases result with
  | error failure => exact fun u _ hu => hreturns
  | ok a =>
    refine (hf a st' t (hst.after hback fun h => hin (hmade h).1) (hback.quiet.trans hquiet)
      fun h => hback.sharing ▸ hin h).mono ?_
    exact fun _ st'' _ _ hlast => hreturns.trans hlast

/-- One request after another inside the gate. -/
theorem Behaves.within (h : r.Behaves may quiet true true)
    (hf : ∀ a, (f a).Behaves may quiet true true) : (r >>= f).Behaves may quiet true true :=
  h.bind hf fun _ => ⟨rfl, rfl⟩

theorem Behaves.map (h : r.Behaves may quiet inside makes) (f : α → β) :
    (r >>= fun a => pure (f a)).Behaves may quiet inside makes := by
  intro st s hst hquiet hin
  refine Job.Assures.bind (h st s hst hquiet hin) fun result st' t _ hback => ?_
  cases result <;> exact fun _ _ _ => hback

theorem Behaves.attempt (h : r.Behaves may quiet inside makes) :
    r.attempt.Behaves may quiet inside makes := by
  intro st s hst hquiet hin
  refine Job.Assures.bind (h st s hst hquiet hin) fun result st' t _ hback => ?_
  exact fun _ _ _ => hback

/-- A request inside the gate. Who leaves the gate may have made a context meanwhile. -/
theorem Behaves.gated (h : r.Behaves may false true makes) :
    (r.gated .shared).Behaves may false inside makes := by
  intro st s hst hquiet _
  have houtside : st.closing ≠ .inside := hst.before ▸ nofun
  refine .step hst.goes fun _ _ _ => ⟨.enterShared hst.free hquiet houtside, fun _ t _ _ => ?_⟩
  have hready : Standing.Ready { st with sharing := st.sharing + 1 } :=
    ⟨hst.free, hst.tidy, hst.before, fun _ => Nat.succ_pos _⟩
  change Job.Assures may _ (Job.bind r fun result => .step (.leaveGate .shared) fun _ =>
    .done result) _ t
  refine .bind (h _ t hready hquiet fun _ => Nat.succ_pos _) fun result st' u _ hback => ?_
  have hinside : 0 < st'.sharing := hback.sharing ▸ Nat.succ_pos _
  refine .step (fun _ => hinside) fun _ _ _ => ⟨.leaveShared hinside, fun _ v _ _ _ _ _ => ?_⟩
  refine ⟨hback.free, hback.tidy, ?_, hback.closing, hback.quiet, hback.made⟩
  have hshares : st'.sharing = st.sharing + 1 := hback.sharing
  change st'.sharing - 1 = st.sharing
  omega

/-- A step that concerns neither the locks nor the gate nor the records. -/
theorem behaves_act {action : Action} (h : ∀ st t, action.Permitted may st t)
    (hafter : ∀ st r, Standing.after st action r = st) :
    (act action).Behaves may quiet inside makes := by
  intro st s hst _ _
  refine .step hst.goes fun t _ _ => ⟨h st t, fun r u _ _ v _ _ => ?_⟩
  rw [hafter]
  exact hst.returns makes

theorem behaves_keys : (ofStorage (Job.act .keys)).Behaves may quiet inside makes := by
  intro st s hst _ _
  refine .step hst.goes fun _ _ _ => ⟨.keys, fun r _ _ _ => ?_⟩
  cases r <;> exact fun _ _ _ => hst.returns makes

theorem behaves_allocate : (ofStorage (Job.act .allocate)).Behaves may quiet true true := by
  intro st s hst _ hin
  refine .step hst.goes fun _ _ _ => ⟨.allocate (hin rfl), fun r _ _ _ => ?_⟩
  cases r with
  | error failure => exact fun _ _ _ => hst.returns true
  | ok key => exact fun _ _ _ => ⟨hst.free, hst.tidy, rfl, rfl, rfl, fun _ => .inr rfl⟩

theorem behaves_mark (key : ContextKey) :
    (act (.markUnbound key)).Behaves may quiet true makes := by
  intro st s hst _ hin
  refine .step hst.goes fun _ _ _ => ⟨.markUnbound key (hin rfl), fun _ _ _ _ _ _ _ => ?_⟩
  exact hst.returns makes

theorem behaves_create (key : ContextKey) :
    (Active.during key .newContext .create Active.commit).Behaves may quiet true makes := by
  intro st s hst _ hin
  have hedits : Active.Edits true Active.commit := .commit
  exact Active.edits_returns hedits hst rfl (fun _ => hin rfl) fun _ => hin rfl

end Request

section

variable {root : ContextKey} {may : Allowance} {quiet inside makes : Bool}

theorem createContext_behaves : createContext.Behaves may false inside true := by
  refine .gated (.within Request.behaves_allocate fun key => ?_)
  refine .within (Request.behaves_create key) fun _ => ?_
  exact .map (Request.behaves_act (fun _ _ => .note _) fun _ _ => rfl) _

theorem createUnbound_behaves : createUnbound.Behaves may false inside true := by
  refine .gated (.within createContext_behaves fun key => ?_)
  exact .map (Request.behaves_mark key) _

/-- A request that keeps to the rules takes permitted steps if all removals of contexts other than
the root are permitted, and leaves its client as it was. -/
theorem Civil.behaves {r : Request α} (h : Civil root inside makes r)
    (hmay : ∀ key, key ≠ root → ∀ st s, may st s key) : r.Behaves may false inside makes := by
  induction h with
  | done result => exact Request.behaves_ofExcept result
  | bind first next quiet ihFirst ihNext => exact ihFirst.bind ihNext quiet
  | map first f ih => exact ih.map f
  | attempt tried ih => exact ih.attempt
  | gated within ih => exact ih.gated
  | note event => exact Request.behaves_act (fun _ _ => .note event) fun _ _ => rfl
  | clear key => exact Request.behaves_act (fun _ _ => .clearUnbound key) fun _ _ => rfl
  | keys => exact Request.behaves_keys
  | allocate => exact Request.behaves_allocate
  | create key => exact Request.behaves_create key
  | createUnbound => exact createUnbound_behaves
  | look key operation view => exact fun _ _ hst _ _ => Active.look_returns hst view
  | edit key operation mutating edits permitted =>
    intro st s hst _ hin
    refine Active.edits_returns edits hst ?_ nofun fun h => hin (permitted h)
    simp only [Active.accessFor, mutating, Bool.true_or, if_true]
  | remove other view => exact fun _ _ hst _ _ => Active.removing_returns hst view (hmay _ other)

end

end Naming
