import Naming.Proofs.Histories
import Naming.Proofs.ClientsFinish

namespace Naming

variable {α β : Type} {n : Nat}

namespace Action

/-- A listing of a sound disk gives each key once, unless it is refused. -/
theorem performs_keys_cases {s t : Server} {r : Except StorageFailure (List ContextKey)}
    (hs : s.store.disk.Sound) (hp : perform? .keys s = some (r, t)) :
    (∃ keys, r = .ok keys ∧ keys.Nodup ∧ ∀ key, key ∈ keys ↔ t.store.disk.contains key = true) ∨
      ∃ failure, r = .error failure ∧ ¬ t.store.Willing := by
  have hr : s.store.keys.1 = r := (Prod.mk.inj (Option.some.inj hp)).1
  have ht : { s with store := s.store.keys.2 } = t := (Prod.mk.inj (Option.some.inj hp)).2
  have hdisk : t.store.disk = s.store.disk := ht ▸ s.store.keys_disk
  obtain ⟨keys, hkeys, _⟩ := hs.keys
  cases r with
  | error failure =>
    refine .inr ⟨failure, rfl, fun hwilling => ?_⟩
    have hwilling : s.store.Willing := (performs_onward hp).fails.symm.trans hwilling
    rw [Store.keys, Store.call_spared (hwilling.spares .keys)] at hr
    simp only [hkeys, Except.map] at hr
    cases hr
  | ok listed =>
    rcases s.store.call_cases .keys fun d => d.keys.map (·, d) with ⟨_, u, hc, _⟩ | ⟨_, u, hc, hb⟩
    · cases (congrArg Prod.fst hc).symm.trans hr
    · cases (congrArg Prod.fst hc).symm.trans hr
      obtain ⟨_, hlisted, he⟩ := Store.map_ok hb
      obtain ⟨rfl, _⟩ := Prod.mk.inj he
      exact .inl ⟨_, rfl, hs.keys_nodup hlisted, fun key => hdisk ▸ hs.mem_keys hlisted⟩

end Action

namespace Request

theorem keys_bind (f : List ContextKey → Request β) :
    (ofStorage (Job.act .keys) >>= f) = Job.step .keys fun r => match r with
      | .ok keys => f keys
      | .error failure => .done (.error (.ofStorage failure)) := by
  refine congrArg (Job.step .keys) (funext fun r => ?_)
  cases r <;> rfl

theorem attempt_bind (r : Request α) (f : Except Failure α → Request β) :
    (r.attempt >>= f) = Job.bind r f :=
  Job.bind_assoc r _ _

end Request

/-- A client that has closed the gate and has nothing of the locks. -/
structure Standing.Sweeping (st : Standing) : Prop where
  free : st.grip = .free
  tidy : st.tidy = true
  inside : st.closing = .inside
  unmade : st.made = false

namespace Standing.Sweeping

variable {st : Standing}

theorem goes (h : st.Sweeping) : st.made = true → 0 < st.sharing := by
  rw [h.unmade]
  nofun

theorem calm (h : st.Sweeping) : st.Calm := .inr h.inside

theorem back (h : st.Sweeping) : { st with grip := .free, tidy := true } = st := by
  rw [← h.free, ← h.tidy]

theorem took (h : st.Sweeping) (taken : List ContextKey) :
    Standing.Sweeping { st with taken := taken } :=
  ⟨h.free, h.tidy, h.inside, h.unmade⟩

end Standing.Sweeping

namespace Sweep

/-- What a sweep may remove: what cannot be reached and does not wait to be bound, while the gate is
closed. -/
def Sparing (root : ContextKey) : Allowance := fun st s key =>
  st.closing = .inside ∧ key ∉ s.memory.unbound ∧ ¬ s.store.disk.Reaches root key

variable {may : Allowance} {root key : ContextKey} {st st' : Standing} {b s t u : Server}

/-- What a visit of a context shows, as long as nothing is added. -/
inductive Shows (key : ContextKey) (s t : Server) : Except Failure (List ContextKey) → Prop
  | links {next : List ContextKey} (old : next ⊆ s.store.disk.links key)
      (new : t.store.disk.links key ⊆ next) : Shows key s t (.ok next)
  | missing (new : t.store.disk.links key = []) : Shows key s t (.error (.noContext key))
  | refused (failure : StorageFailure) (unwilling : ¬ t.store.Willing) :
      Shows key s t (.error (.ofStorage failure))

theorem Shows.later {result : Except Failure (List ContextKey)} (h : Shows key s t result)
    (hst : st.Calm) (hu : t.Onward st.Calm u) : Shows key s u result := by
  have hlinks := (hu.calm hst).links key
  cases h with
  | links old new => exact .links old (List.Subset.trans hlinks new)
  | missing new =>
    rw [new] at hlinks
    exact .missing (List.subset_nil.mp hlinks)
  | refused failure unwilling => exact .refused failure fun hw => unwilling (hu.willing.mp hw)

theorem shows_found {found : Except Failure (BindingSet × Bool)}
    (h : Active.Finds key .existing t found) (hlinks : t.store.disk.links key ⊆
      s.store.disk.links key) : Shows key s t (found.map fun p => p.1.contexts) := by
  cases h with
  | stored load =>
    rw [Disk.links_of_load load] at hlinks
    exact .links hlinks (Disk.links_of_load load ▸ List.Subset.refl _)
  | fresh load create => cases create
  | missing load => exact .missing (Disk.links_of_missing load)
  | refused failure unwilling => exact .refused failure unwilling

/-- A visit gives links that the context has had meanwhile, and all that it still has. -/
theorem links_assures (hst : st.Sweeping) :
    Job.Assures may (fun result st' t => st' = st ∧ s.Onward st.Calm t ∧
      ((∃ next, result = .ok next ∧ next ⊆ s.store.disk.links key ∧
        t.store.disk.links key ⊆ next) ∨ ∃ failure, result = .error failure ∧ ¬ t.store.Willing))
      (links key) st s := by
  have hlook : Job.Assures may (fun result st' t => st' = st ∧ s.Onward st.Calm t ∧
      Shows key s t result) (Active.during key .list .existing
        (Active.look fun b => .ok b.contexts)) st s := by
    refine Active.during_assures hst.free hst.tidy hst.goes (fun failure t ht hfinds => ?_)
      (fun id t bindings dirty ht hfinds => ?_) ?_
    · exact ⟨rfl, ht, shows_found hfinds ((ht.calm hst.calm).links key)⟩
    · rw [Active.job_look]
      intro u _ hu
      refine ⟨(hfinds.inHand rfl .list).later hu, hst.goes, hst.back, ht.trans hu.toOnward, ?_⟩
      exact (shows_found hfinds ((ht.calm hst.calm).links key)).later hst.calm hu.toOnward
    · rintro result _ t u hu ⟨rfl, ht, hshows⟩
      exact ⟨rfl, ht.trans hu, hshows.later hst.calm hu⟩
  unfold links
  rw [Request.attempt_bind]
  refine .bind hlook ?_
  rintro _ _ t _ ⟨rfl, ht, hshows⟩
  cases hshows with
  | links old new =>
    intro u _ hu
    refine ⟨rfl, ht.trans hu.toOnward, .inl ⟨_, rfl, old, ?_⟩⟩
    exact List.Subset.trans ((hu.calm hst.calm).links key) new
  | missing new =>
    intro u _ hu
    refine ⟨rfl, ht.trans hu.toOnward, .inl ⟨_, rfl, List.nil_subset _, ?_⟩⟩
    exact new ▸ (hu.calm hst.calm).links key
  | refused failure unwilling =>
    cases failure <;>
      exact fun u _ hu => ⟨rfl, ht.trans hu.toOnward, .inr ⟨_, rfl, mt hu.willing.mp unwilling⟩⟩

/-- What holds of the walk of a sweep at any time, although contexts lose links and records behind
it. It began on the server `b`. -/
structure Tour (root : ContextKey) (b : Server) (seen queue : List ContextKey) (s : Server) :
    Prop where
  shrinks : b.Shrinks s
  distinct : seen.Nodup
  reached : ∀ key, key ∈ seen ∨ key ∈ queue → b.store.disk.Reaches root key
  root : root ∈ seen ∨ root ∈ queue
  followed : ∀ key ∈ seen, ∀ next ∈ s.store.disk.links key, next ∈ seen ∨ next ∈ queue

namespace Tour

variable {seen queue next : List ContextKey}

theorem later (h : Tour root b seen queue s) (hst : s.Shrinks t) : Tour root b seen queue t :=
  { h with
    shrinks := h.shrinks.trans hst
    followed := fun key hk next hn => h.followed key hk next (hst.links key hn) }

/-- The walk passes over what it has seen. -/
theorem skip (h : Tour root b seen (key :: queue) s) (known : key ∈ seen) :
    Tour root b seen queue s := by
  have hqueue : ∀ k, k ∈ seen ∨ k ∈ key :: queue → k ∈ seen ∨ k ∈ queue := by
    intro k hk
    rcases hk with hk | hk
    · exact .inl hk
    · rcases List.mem_cons.mp hk with rfl | hk
      · exact .inl known
      · exact .inr hk
  exact { h with
    reached := fun k hk => h.reached k (hk.imp_right (List.mem_cons_of_mem _))
    root := hqueue root h.root
    followed := fun k hk next hn => hqueue next (h.followed k hk next hn) }

theorem skips (h : Tour root b seen queue s) :
    Tour root b seen (queue.dropWhile seen.contains) s := by
  induction queue with
  | nil => exact h
  | cons key queue ih =>
    rw [List.dropWhile_cons]
    split
    · rename_i known
      exact ih (h.skip (List.contains_iff_mem.mp known))
    · exact h

/-- The walk visits a context: the links shown are some that it had, and all that it still has. -/
theorem visit (h : Tour root b seen (key :: queue) s) (unknown : key ∉ seen) (hst : s.Shrinks t)
    (hold : next ⊆ s.store.disk.links key) (hnew : t.store.disk.links key ⊆ next) :
    Tour root b (key :: seen) (queue ++ next) t := by
  have hkey : b.store.disk.Reaches root key := h.reached key (.inr List.mem_cons_self)
  have hmoved : ∀ k, k ∈ seen ∨ k ∈ key :: queue → k ∈ key :: seen ∨ k ∈ queue ++ next := by
    intro k hk
    rcases hk with hk | hk
    · exact .inl (List.mem_cons_of_mem _ hk)
    · rcases List.mem_cons.mp hk with rfl | hk
      · exact .inl List.mem_cons_self
      · exact .inr (List.mem_append_left _ hk)
  refine ⟨h.shrinks.trans hst, List.nodup_cons.mpr ⟨unknown, h.distinct⟩, fun k hk => ?_,
    hmoved _ h.root, fun k hk link hlink => ?_⟩
  · rcases hk with hk | hk
    · rcases List.mem_cons.mp hk with rfl | hk
      · exact hkey
      · exact h.reached k (.inl hk)
    · rcases List.mem_append.mp hk with hk | hk
      · exact h.reached k (.inr (List.mem_cons_of_mem _ hk))
      · exact .step hkey (h.shrinks.links key (hold hk))
  · rcases List.mem_cons.mp hk with rfl | hk
    · exact .inr (List.mem_append_right _ (hnew hlink))
    · exact hmoved _ (h.followed k hk link (hst.links k hlink))

/-- The walk sees no more contexts than the root and what the links led to when it began. -/
theorem room (h : Tour root b seen queue s) (hkey : key ∈ queue) (unknown : key ∉ seen) :
    seen.length < b.store.disk.linkCount + 1 := by
  have hsub : key :: seen ⊆ root :: b.store.disk.allLinks := by
    intro k hk
    rcases List.mem_cons.mp hk with rfl | hk
    · exact (h.reached k (.inr hkey)).mem
    · exact (h.reached k (.inl hk)).mem
  have hle := (List.nodup_cons.mpr ⟨unknown, h.distinct⟩).length_le_of_subset hsub
  rw [List.length_cons, List.length_cons, Disk.length_allLinks] at hle
  exact hle

/-- When nothing unseen is left in the queue, the walk has seen all that can still be reached. -/
theorem covers (h : Tour root b seen queue s) (hall : ∀ key ∈ queue, key ∈ seen)
    (hr : s.store.disk.Reaches root key) : key ∈ seen := by
  induction hr with
  | root => exact h.root.elim id (hall _)
  | step before link ih => exact (h.followed _ ih _ link).elim id (hall _)

end Tour

/-- What the walk of a sweep comes to: what it has seen, which could be reached when it began and is
all that can be reached now. -/
inductive Covers (root : ContextKey) (b s : Server) :
    Except Failure (Option (List ContextKey)) → Prop
  | all {seen : List ContextKey} (reached : ∀ key ∈ seen, b.store.disk.Reaches root key)
      (covers : ∀ key, s.store.disk.Reaches root key → key ∈ seen) :
      Covers root b s (.ok (some seen))
  | refused (failure : Failure) (unwilling : ¬ s.store.Willing) : Covers root b s (.error failure)

/-- With room for all links the walk gets to its end, whatever others remove meanwhile. -/
theorem reach_assures (hst : st.Sweeping) {limit : Nat} {seen queue : List ContextKey}
    (htour : Tour root b seen queue s) (hroom : b.store.disk.linkCount < limit + seen.length) :
    Job.Assures may (fun result st' t => st' = st ∧ s.Onward st.Calm t ∧ Covers root b t result)
      (reach limit seen queue) st s := by
  induction limit generalizing seen queue s with
  | zero =>
    have hall : ∀ key ∈ queue, key ∈ seen := by
      intro key hkey
      by_contra unknown
      have hless := htour.room hkey unknown
      omega
    have hdone : reach 0 seen queue = pure (some seen) := by
      unfold reach
      rw [if_pos (List.all_eq_true.mpr fun key hkey => List.contains_iff_mem.mpr (hall key hkey))]
    rw [hdone]
    intro t _ ht
    refine ⟨rfl, ht.toOnward, .all (fun key hk => htour.reached key (.inl hk)) fun key hr => ?_⟩
    exact (htour.later (ht.calm hst.calm)).covers hall hr
  | succ limit ih =>
    have hskipped := htour.skips
    unfold reach
    split
    · rename_i hempty
      rw [hempty] at hskipped
      intro t _ ht
      refine ⟨rfl, ht.toOnward, .all (fun key hk => hskipped.reached key (.inl hk)) ?_⟩
      intro key hr
      exact (hskipped.later (ht.calm hst.calm)).covers nofun hr
    · rename_i key rest hnext
      rw [hnext] at hskipped
      have unknown : key ∉ seen := by
        intro known
        have hhead := List.head_dropWhile_not seen.contains (l := queue) (by rw [hnext]; nofun)
        simp only [hnext, List.head_cons] at hhead
        rw [List.contains_iff_mem.mpr known] at hhead
        cases hhead
      refine .bind (links_assures hst) ?_
      rintro _ _ t _ ⟨rfl, ht, ⟨next, rfl, hold, hnew⟩ | ⟨failure, rfl, unwilling⟩⟩
      · have htour' := hskipped.visit unknown (ht.calm hst.calm) hold hnew
        refine (ih htour' (by rw [List.length_cons]; omega)).mono ?_
        rintro result st' u _ ⟨hst', hu, hcovers⟩
        exact ⟨hst', ht.trans hu, hcovers⟩
      · exact fun u _ hu => ⟨rfl, ht.trans hu.toOnward, .refused _ (mt hu.willing.mp unwilling)⟩

/-- What becomes of a context that a sweep means to remove: it is gone, by the sweep or before, or
the store refuses. -/
inductive Drops (key : ContextKey) (st : Standing) (s : Server) :
    Except Failure Unit → Standing → Prop
  | dropped (absent : s.store.disk.contains key = false) :
      Drops key st s (.ok ()) { st with taken := key :: st.taken }
  | missing (absent : s.store.disk.contains key = false) :
      Drops key st s (.error (.noContext key)) st
  | refused (failure : Failure) (unwilling : ¬ s.store.Willing) :
      Drops key st s (.error failure) st

theorem Drops.later {result : Except Failure Unit} (h : Drops key st s result st')
    (hst : st.Calm) (ht : s.Onward st.Calm t) : Drops key st t result st' := by
  cases h with
  | dropped absent => exact .dropped ((ht.calm hst).absent absent)
  | missing absent => exact .missing ((ht.calm hst).absent absent)
  | refused failure unwilling => exact .refused failure (mt ht.willing.mp unwilling)

theorem Drops.sweeping {result : Except Failure Unit} (h : Drops key st s result st')
    (hst : st.Sweeping) : st'.Sweeping := by
  cases h with
  | dropped => exact hst.took _
  | missing | refused => exact hst

/-- The removal of one context by a sweep. -/
theorem removal_assures (hst : st.Sweeping) (hunbound : key ∉ s.memory.unbound)
    (hunreached : ¬ s.store.disk.Reaches root key) :
    Job.Assures (Sparing root) (fun result st' t => s.Onward st.Calm t ∧ Drops key st t result st')
      (Active.during key .destroy .existing Active.remove) st s := by
  have hcalm := hst.calm
  refine Active.during_assures hst.free hst.tidy hst.goes (fun failure t ht hfinds => ⟨ht, ?_⟩)
    (fun id t bindings dirty ht hfinds => ?_) ?_
  · cases hfinds with
    | missing load =>
      refine .missing ?_
      rw [Disk.contains_eq, Disk.load_none_iff.mp load]
      rfl
    | refused failure unwilling => exact .refused _ unwilling
  · have hload : t.store.disk.load key = .ok (some bindings) := by
      cases hfinds with
      | stored load => exact load
      | fresh load create => cases create
    have hhand : Active.InHand ⟨key, .destroy, bindings, dirty, false, id, .exclusive⟩
        { st with grip := .holds key id .exclusive } t := hfinds.inHand rfl .destroy
    refine (Active.remove_assures hhand rfl hload hst.goes fun u _ hu => ?_).mono ?_
    · have hshrinks := (ht.calm hcalm).trans (hu.calm hcalm)
      exact ⟨hst.inside, fun hm => hunbound (hshrinks.unbound hm),
        fun hr => hunreached (hshrinks.reaches hr)⟩
    · rintro ⟨result, c⟩ st' u _ ⟨hleft, hu, hremoves⟩
      cases hremoves with
      | gone a absent =>
        refine ⟨hleft, hst.goes, ht.trans hu, ?_⟩
        change Drops key st u _ { ({ st with grip := .free, tidy := true } : Standing) with
          taken := key :: st.taken }
        rw [hst.back]
        exact .dropped absent
      | refused failure unwilling =>
        refine ⟨hleft, hst.goes, ht.trans hu, ?_⟩
        change Drops key st u _ { st with grip := .free, tidy := true }
        rw [hst.back]
        exact .refused failure unwilling
  · rintro result st' t u hu ⟨ht, hdrops⟩
    have hu : t.Onward st.Calm u := hu.mono fun _ => (hdrops.sweeping hst).calm
    exact ⟨ht.trans hu, hdrops.later hcalm hu⟩

/-- What the removals of a sweep come to. It removed what it says, and of the keys it was given none
is left that it was not to spare. Or it came to a key whose record was gone, which it had not
removed itself, and gave up. -/
inductive Clears (seen keys : List ContextKey) (before : Standing) (s t : Server) :
    Except Failure (List ContextKey) → Standing → Prop
  | cleared {removed taken : List ContextKey}
      (took : ∀ key, key ∈ taken ↔ key ∈ removed ∨ key ∈ before.taken)
      (left : ∀ key ∈ keys, t.store.disk.contains key = true →
        key ∈ seen ∨ key ∈ s.memory.unbound) :
      Clears seen keys before s t (.ok removed) { before with taken := taken }
  | missed {key : ContextKey} {taken : List ContextKey} (listed : key ∈ keys) (unseen : key ∉ seen)
      (absent : t.store.disk.contains key = false) (other : key ∉ taken) :
      Clears seen keys before s t (.error (.noContext key)) { before with taken := taken }
  | refused {taken : List ContextKey} (failure : Failure) (unwilling : ¬ t.store.Willing) :
      Clears seen keys before s t (.error failure) { before with taken := taken }

namespace Clears

variable {seen keys : List ContextKey} {result : Except Failure (List ContextKey)}

theorem later (h : Clears seen keys st s t result st') (hst : st.Calm)
    (hu : t.Onward st.Calm u) : Clears seen keys st s u result st' := by
  cases h with
  | cleared took left =>
    exact .cleared took fun key hk hc => left key hk ((hu.calm hst).records key hc)
  | missed listed unseen absent other =>
    exact .missed listed unseen ((hu.calm hst).absent absent) other
  | refused failure unwilling => exact .refused failure (mt hu.willing.mp unwilling)

theorem sweeping (h : Clears seen keys st s t result st') (hst : st.Sweeping) : st'.Sweeping := by
  cases h <;> exact hst.took _

/-- A key that is spared, or that has no record any more, makes no difference. -/
theorem cons (h : Clears seen keys st u t result st') (hu : s.Shrinks u)
    (hkey : t.store.disk.contains key = true → key ∈ seen ∨ key ∈ s.memory.unbound) :
    Clears seen (key :: keys) st s t result st' := by
  cases h with
  | cleared took left =>
    refine .cleared took fun k hk hc => ?_
    rcases List.mem_cons.mp hk with rfl | hk
    · exact hkey hc
    · exact (left k hk hc).imp_right fun hm => hu.unbound hm
  | missed listed unseen absent other =>
    exact .missed (List.mem_cons_of_mem _ listed) unseen absent other
  | refused failure unwilling => exact .refused failure unwilling

/-- A key whose record the sweep removed comes first among those that it says it removed. -/
theorem take (h : Clears seen keys { st with taken := key :: st.taken } u t result st')
    (hu : s.Shrinks u) (habsent : t.store.disk.contains key = false) :
    Clears seen (key :: keys) st s t (result.map (key :: ·)) st' := by
  cases h with
  | cleared took left =>
    rename_i removed taken
    have htook : ∀ k, k ∈ taken ↔ k ∈ key :: removed ∨ k ∈ st.taken := by
      intro k
      rw [took, List.mem_cons, List.mem_cons, or_left_comm, or_assoc]
    refine .cleared htook fun k hk hc => ?_
    rcases List.mem_cons.mp hk with rfl | hk
    · cases habsent.symm.trans hc
    · exact (left k hk hc).imp_right fun hm => hu.unbound hm
  | missed listed unseen absent other =>
    exact .missed (List.mem_cons_of_mem _ listed) unseen absent other
  | refused failure unwilling => exact .refused failure unwilling

end Clears

/-- Once a sweep has removed a context, it goes on with the rest of the keys. -/
theorem rest_assures (hst : st.Sweeping) {seen rest : List ContextKey} (hgone : s.Onward st.Calm t)
    (absent : t.store.disk.contains key = false)
    (h : Job.Assures (Sparing root) (fun result st' u => t.Onward st.Calm u ∧
        Clears seen rest { st with taken := key :: st.taken } t u result st')
      (removeOthers seen rest) { st with taken := key :: st.taken } t) :
    Job.Assures (Sparing root)
      (fun result st' u => s.Onward st.Calm u ∧ Clears seen (key :: rest) st s u result st')
      (do return key :: (← removeOthers seen rest) : Request (List ContextKey))
      { st with taken := key :: st.taken } t := by
  have hcalm := hst.calm
  refine .bind h ?_
  rintro result st' u _ ⟨hu, hclears⟩
  have hclears := hclears.take (hgone.calm hcalm) ((hu.calm hcalm).absent absent)
  have hlater : ∀ v, st'.Bears u v → s.Onward st.Calm v ∧
      Clears seen (key :: rest) st s v (result.map (key :: ·)) st' := by
    intro v hv
    have hv : u.Onward st.Calm v := hv.mono fun _ => (hclears.sweeping hst).calm
    exact ⟨(hgone.trans hu).trans hv, hclears.later hcalm hv⟩
  cases result <;> exact fun v _ hv => hlater v hv

/-- The removals of a sweep remove nothing that is to be spared. -/
theorem removeOthers_assures (hst : st.Sweeping) {seen keys : List ContextKey}
    (hseen : ∀ key, s.store.disk.Reaches root key → key ∈ seen) (hkeys : keys.Nodup)
    (htaken : ∀ key ∈ keys, key ∉ st.taken) :
    Job.Assures (Sparing root)
      (fun result st' t => s.Onward st.Calm t ∧ Clears seen keys st s t result st')
      (removeOthers seen keys) st s := by
  induction keys generalizing st s with
  | nil => exact fun t _ ht => ⟨ht.toOnward, .cleared (fun key => by simp) nofun⟩
  | cons key rest ih =>
    obtain ⟨hnotin, hrest⟩ := List.nodup_cons.mp hkeys
    have hcalm := hst.calm
    refine .step hst.goes fun t _ ht => ⟨.isUnbound key, fun r u hp hu => ?_⟩
    obtain ⟨rfl, rfl⟩ := Prod.mk.inj (Option.some.inj hp)
    have hshrinks := ht.calm hcalm
    have hseen' : ∀ k, t.store.disk.Reaches root k → k ∈ seen :=
      fun k hr => hseen k (hshrinks.reaches hr)
    change Job.Assures (Sparing root) _
      (if seen.contains key || t.memory.unbound.contains key then removeOthers seen rest
        else _) st t
    split
    · rename_i hspared
      have hspared : key ∈ seen ∨ key ∈ s.memory.unbound := by
        rw [Bool.or_eq_true, List.contains_iff_mem, List.contains_iff_mem] at hspared
        exact hspared.imp_right fun hm => hshrinks.unbound hm
      refine (ih hst hseen' hrest fun k hk => htaken k (List.mem_cons_of_mem _ hk)).mono ?_
      exact fun result st' v _ ⟨hv, hclears⟩ =>
        ⟨hu.trans hv, hclears.cons hshrinks fun _ => hspared⟩
    · rename_i hcond
      simp only [Bool.or_eq_true, List.contains_iff_mem, not_or] at hcond
      obtain ⟨hunseen, hunbound⟩ := hcond
      refine .bind (removal_assures hst hunbound fun hr => hunseen (hseen' key hr)) ?_
      rintro _ st' v _ ⟨hv, hdrops⟩
      have hgone := hu.trans hv
      have hsweeping := hdrops.sweeping hst
      cases hdrops with
      | dropped absent =>
        have hfresh : ∀ k ∈ rest, k ∉ key :: st.taken := by
          intro k hk hm
          rcases List.mem_cons.mp hm with rfl | hm
          · exact hnotin hk
          · exact htaken k (List.mem_cons_of_mem _ hk) hm
        exact rest_assures hst hgone absent
          (ih hsweeping (fun k hr => hseen' k ((hv.calm hcalm).reaches hr)) hrest hfresh)
      | missing absent =>
        exact fun w _ hw => ⟨hgone.trans hw.toOnward, .missed List.mem_cons_self hunseen
          ((hw.calm hcalm).absent absent) (htaken key List.mem_cons_self)⟩
      | refused failure unwilling =>
        exact fun w _ hw =>
          ⟨hgone.trans hw.toOnward, .refused failure (mt hw.willing.mp unwilling)⟩

/-- What a sweep comes to that closed the gate on the server `b` and opens it again on the server
`e`: it removed what it says, and what is left could be reached or waited to be bound. Or a record
was gone before the sweep could remove it, or the store refused. -/
inductive ComesTo (root : ContextKey) (b e : Server) (taken : List ContextKey) :
    Except Failure (List ContextKey) → Prop
  | swept {removed : List ContextKey} (took : ∀ key, key ∈ taken ↔ key ∈ removed)
      (left : ∀ key, e.store.disk.contains key = true →
        b.store.disk.Reaches root key ∨ key ∈ b.memory.unbound) :
      ComesTo root b e taken (.ok removed)
  | missed {key : ContextKey} (stored : b.store.disk.contains key = true)
      (unreached : ¬ e.store.disk.Reaches root key)
      (absent : e.store.disk.contains key = false) (other : key ∉ taken) :
      ComesTo root b e taken (.error (.noContext key))
  | refused (failure : Failure) (unwilling : ¬ e.store.Willing) :
      ComesTo root b e taken (.error failure)

theorem ComesTo.later {taken : List ContextKey} {result : Except Failure (List ContextKey)}
    (h : ComesTo root b s taken result) (hst : st.Calm) (ht : s.Onward st.Calm t) :
    ComesTo root b t taken result := by
  cases h with
  | swept took left => exact .swept took fun key hc => left key ((ht.calm hst).records key hc)
  | missed stored unreached absent other =>
    exact .missed stored (mt (ht.calm hst).reaches unreached) ((ht.calm hst).absent absent) other
  | refused failure unwilling => exact .refused failure (mt ht.willing.mp unwilling)

/-- When all keys were listed, the removals end the sweep. -/
theorem Clears.comesTo {seen keys : List ContextKey} {result : Except Failure (List ContextKey)}
    (h : Clears seen keys st s t result st') (htaken : st.taken = []) (hb : b.Shrinks s)
    (hst : s.Shrinks t) (hreached : ∀ key ∈ seen, b.store.disk.Reaches root key)
    (hcovers : ∀ key, s.store.disk.Reaches root key → key ∈ seen)
    (hlisted : ∀ key, key ∈ keys ↔ s.store.disk.contains key = true) :
    ∃ taken, st' = { st with taken := taken } ∧ ComesTo root b t taken result := by
  cases h with
  | cleared took left =>
    refine ⟨_, rfl, .swept (fun key => ?_) fun key hc => ?_⟩
    · simp only [took, htaken, List.not_mem_nil, or_false]
    · exact (left key ((hlisted key).mpr (hst.records key hc)) hc).imp (hreached key)
        fun hm => hb.unbound hm
  | missed listed unseen absent other =>
    have hstored := hb.records _ ((hlisted _).mp listed)
    exact ⟨_, rfl, .missed hstored (fun hr => unseen (hcovers _ (hst.reaches hr))) absent other⟩
  | refused failure unwilling => exact ⟨_, rfl, .refused failure unwilling⟩

/-- What a sweep does once it has seen what it is to spare. -/
theorem listed_assures (hst : st.Sweeping) (htaken : st.taken = []) (hb : b.Shrinks s)
    {seen : List ContextKey} (hreached : ∀ key ∈ seen, b.store.disk.Reaches root key)
    (hcovers : ∀ key, s.store.disk.Reaches root key → key ∈ seen)
    (event : List ContextKey → Log.Event) :
    Job.Assures (Sparing root) (fun result st' t => ∃ taken, st' = { st with taken := taken } ∧
      ComesTo root b t taken result) (do
        let keys ← Request.ofStorage (Job.act .keys)
        let removed ← removeOthers seen keys
        Request.note (event removed)
        return removed : Request (List ContextKey)) st s := by
  have hcalm := hst.calm
  rw [Request.keys_bind]
  refine .step hst.goes fun t ht _ => ⟨.keys, fun r u hp hu => ?_⟩
  have hbu : b.Shrinks u := hb.trans (hu.calm hcalm)
  rcases Action.performs_keys_cases ht.sound hp with
    ⟨keys, rfl, hnodup, hlisted⟩ | ⟨failure, rfl, unwilling⟩
  · have hnone : ∀ key ∈ keys, key ∉ st.taken := by
      rw [htaken]
      exact fun _ _ => List.not_mem_nil
    have hcovers : ∀ key, u.store.disk.Reaches root key → key ∈ seen :=
      fun key hr => hcovers key ((hu.calm hcalm).reaches hr)
    refine .bind (removeOthers_assures hst hcovers hnodup hnone) ?_
    rintro result st' v _ ⟨hv, hclears⟩
    have hsweeping := hclears.sweeping hst
    obtain ⟨taken, hst', hcomes⟩ :=
      hclears.comesTo htaken hbu (hv.calm hcalm) hreached hcovers hlisted
    cases result with
    | error failure => exact fun w _ hw => ⟨taken, hst', hcomes.later hsweeping.calm hw.toOnward⟩
    | ok removed =>
      refine .step hsweeping.goes fun _ _ _ => ⟨.note _, fun _ w _ hw x _ hx => ?_⟩
      exact ⟨taken, hst', hcomes.later hsweeping.calm (hw.trans hx.toOnward)⟩
  · exact fun v _ hv => ⟨_, rfl, .refused _ (mt hv.willing.mp unwilling)⟩

/-- What a sweep does while it has the gate closed. -/
theorem within_assures (hst : st.Sweeping) (htaken : st.taken = []) (hb : b.Shrinks s) {limit : Nat}
    (hlimit : b.store.disk.linkCount < limit) :
    Job.Assures (Sparing root) (fun result st' t => ∃ taken, st' = { st with taken := taken } ∧
      ComesTo root b t taken result) (within root limit) st s := by
  have htour : Tour root b [] [root] s := by
    refine ⟨hb, List.nodup_nil, fun key hk => ?_, .inr List.mem_cons_self, nofun⟩
    rcases hk with hk | hk
    · cases hk
    · exact List.mem_singleton.mp hk ▸ .root
  unfold within
  refine .bind (reach_assures hst htour hlimit) ?_
  rintro _ _ t _ ⟨rfl, ht, hcovers⟩
  cases hcovers with
  | refused failure unwilling =>
    exact fun u _ hu => ⟨_, rfl, .refused failure (mt hu.willing.mp unwilling)⟩
  | all reached covers =>
    exact listed_assures hst htaken (hb.trans (ht.calm hst.calm)) reached covers _

end Sweep

/-- A sweep that others do not wait for. What it comes to is told of the server at the time it
opened the gate. -/
theorem Service.sweep_assures (service : Service) {st : Standing} {s : Server} (hst : st.Ready)
    (hsharing : st.sharing = 0) (hmade : st.made = false) (htaken : st.taken = []) :
    Job.Assures (Sweep.Sparing service.root) (fun result st' t => ∃ b e taken,
      st' = { st with closing := .after, taken := taken } ∧ s.Onward (st.quiet = true) b ∧
        e.Onward (st.quiet = true) t ∧ Sweep.ComesTo service.root b e taken result)
      service.sweep st s := by
  refine .step hst.goes fun _ _ _ =>
    ⟨.enterExclusive hst.free hsharing hst.before, fun _ t _ ht => ?_⟩
  have hsweeping : Standing.Sweeping { st with closing := .inside } :=
    ⟨hst.free, hst.tidy, rfl, hmade⟩
  refine .step hsweeping.goes fun u hu hb => ⟨.census, fun limit v hp hv => ?_⟩
  have hlimit : v.store.disk.linkCount < limit := by
    obtain ⟨rfl, rfl⟩ := Prod.mk.inj (Option.some.inj hp)
    exact Sweep.linkCount_lt_census u
  have hbase : s.Onward (st.quiet = true) v :=
    (ht.mono .inl).trans (hv.mono .inl)
  change Job.Assures _ _ (Job.bind (Sweep.within service.root limit) fun result =>
    .step (.leaveGate .exclusive) fun _ => .done result) _ v
  refine .bind (Sweep.within_assures hsweeping htaken (.refl v) hlimit) ?_
  rintro result _ w _ ⟨taken, rfl, hcomes⟩
  refine .step hsweeping.goes fun _ _ _ => ⟨.leaveExclusive rfl, fun _ e _ he x _ hx => ?_⟩
  exact ⟨v, e, taken, rfl, hbase, hx.mono .inl, hcomes.later hsweeping.calm he⟩

/-- The context that a job is about to remove. -/
def Job.removal? : Job α → Option ContextKey
  | step (.remove key) _ => some key
  | _ => none

theorem Job.removal?_some {job : Job α} {key : ContextKey} (h : job.removal? = some key) :
    ∃ next, job = .step (.remove key) next := by
  unfold removal? at h
  split at h
  · cases h
    exact ⟨_, rfl⟩
  · cases h

/-- What a task may remove: a sweep what it is not to spare, and anybody else no root. -/
def Task.allowance (service : Service) : Task → Allowance
  | .sweep => Sweep.Sparing service.root
  | _ => fun _ _ key => key ≠ service.root

theorem Task.assures (task : Task) (service : Service) (s : Server) :
    Job.Assures (task.allowance service)
      (fun _ st _ => st.Away) (task.request service) {} s := by
  have hst : Standing.Ready {} := ⟨rfl, rfl, rfl, nofun⟩
  by_cases hsweep : task = .sweep
  · subst hsweep
    refine .bind (service.sweep_assures hst rfl rfl rfl) ?_
    rintro result _ t _ ⟨_, _, taken, rfl, _⟩
    cases result <;> exact fun _ _ _ => ⟨rfl, rfl, nofun⟩
  · have hallowance : task.allowance service = fun _ _ key => key ≠ service.root := by
      cases task with
      | sweep => exact absurd rfl hsweep
      | _ => rfl
    rw [hallowance]
    have hcivil : Civil service.root false true (task.request service) :=
      Task.request_civil service hsweep
    have hbehaves : (task.request service).Behaves (fun _ _ key => key ≠ service.root) false false
        true := hcivil.behaves fun _ hkey _ _ => hkey
    exact (hbehaves {} s hst rfl nofun).mono fun _ _ _ _ hback => hst.away hback rfl

namespace Race

variable {service : Service} {tasks : Fin n → Task} {s : Server} {i : Fin n} {key : ContextKey}
  {schedule : List (Fin n)} {race : Race n (Except Failure Answer)}

theorem kept_ofTasks (service : Service) (tasks : Fin n → Task) (hs : s.AtRest)
    (hsound : s.Sound) : (ofTasks service tasks s).Kept (fun i => (tasks i).allowance service)
      (fun _ _ st _ => st.Away) fun _ => {} :=
  .begins false hs hsound fun i => (tasks i).assures service s

/-- However clients have taken turns, they can go on until all their tasks are done. -/
theorem tasks_finish (hs : s.AtRest) (hsound : s.Sound)
    (hp : (ofTasks service tasks s).play schedule = some race) :
    ∃ rest last, race.play rest = some last ∧ ∀ i, ∃ answer, last.jobs i = .done answer := by
  obtain ⟨_, hkept, _⟩ := (kept_ofTasks service tasks hs hsound).play hp
  exact hkept.finishes fun _ _ _ _ => id

/-- A sweep takes no context from under the others. What it is about to remove is neither the root
nor can it be reached nor does it wait to be bound, it will not be reached when the sweep opens the
gate again, and whoever has made a context has done with it. -/
theorem sweep_spares (hs : s.AtRest) (hsound : s.Sound) (hsweep : tasks i = .sweep)
    (hp : (ofTasks service tasks s).play schedule = some race)
    {next : Except StorageFailure Bool → Job (Except Failure Answer)}
    (hremove : race.jobs i = .step (.remove key) next) :
    key ≠ service.root ∧ key ∉ race.server.memory.unbound ∧
      ¬ race.server.store.disk.Reaches service.root key ∧
      (∀ j made, (ofTasks service tasks s).Took j .allocate (.ok made) schedule →
        ∃ answer, race.jobs j = .done answer) ∧
      ∀ rest later (last : Unit → Job (Except Failure Answer)), race.play rest = some later →
        later.jobs i = .step (.leaveGate .exclusive) last →
          ¬ later.server.store.disk.Reaches service.root key := by
  obtain ⟨crowd, hkept, hcourse⟩ := (kept_ofTasks service tasks hs hsound).play hp
  have hallowed : Sweep.Sparing service.root (crowd i) race.server key := by
    cases (hkept.permitted hremove).1 with
    | remove holds allowed =>
      rw [hsweep] at allowed
      exact allowed
  obtain ⟨hinside, hunbound, hunreached⟩ := hallowed
  refine ⟨fun hroot => hunreached (hroot ▸ .root), hunbound, hunreached, fun j made htook => ?_,
    fun rest later last hrest hleave hr => ?_⟩
  · -- who has made a context and is not done is inside the gate, which the sweep has closed
    have hmade := (hcourse.made j).mpr (.inr ⟨made, htook⟩)
    cases hj : race.jobs j with
    | done answer => exact ⟨answer, rfl⟩
    | step action rest =>
      have hshares := (hkept.permitted hj).2 hmade
      have hnone := hkept.hosts.gate.calm i j (.inr hinside)
      omega
  · obtain ⟨crowd', hkept', hcourse'⟩ := hkept.play hrest
    have hstill : (crowd' i).closing = .inside := by
      cases (hkept'.permitted hleave).1 with
      | leaveExclusive inside => exact inside
    exact hunreached ((hcourse'.shrinks i (.inr hinside) (.inr hstill)).reaches hr)

/-- While one client sweeps another unbinds a context, after a third has made one. -/
theorem sweep_spares_racing : ∃ (service : Service) (s : Server) (history : History)
    (race : Race 3 (Except Failure Answer))
    (next : Except StorageFailure Bool → Job (Except Failure Answer)),
    Service.firstRun [.call ⟨"NC0"⟩ (.bindNewContext (.single ⟨.ofId "a", rfl⟩))] =
        some (service, s, history) ∧
      (ofTasks service ![.sweep, .call ⟨"NC0"⟩ (.unbind (.single ⟨.ofId "a", rfl⟩)),
          .call ⟨"NC0"⟩ (.bindNewContext (.single ⟨.ofId "b", rfl⟩))] s).play
        (List.replicate 30 2 ++ [0, 0, 1, 1, 1, 0] ++ List.replicate 7 1 ++ List.replicate 25 0) =
          some race ∧
      race.jobs 0 = .step (.remove ⟨"NC1"⟩) next ∧
      (⟨"NC1"⟩ : ContextKey) ≠ service.root ∧ ⟨"NC1"⟩ ∉ race.server.memory.unbound ∧
      ¬ race.server.store.disk.Reaches service.root ⟨"NC1"⟩ := by
  have hrun : (Service.firstRun
      [.call ⟨"NC0"⟩ (.bindNewContext (.single ⟨.ofId "a", rfl⟩))]).any (fun p =>
        ((ofTasks p.1 ![.sweep, .call ⟨"NC0"⟩ (.unbind (.single ⟨.ofId "a", rfl⟩)),
          .call ⟨"NC0"⟩ (.bindNewContext (.single ⟨.ofId "b", rfl⟩))] p.2.1).play
        (List.replicate 30 2 ++ [0, 0, 1, 1, 1, 0] ++ List.replicate 7 1 ++
          List.replicate 25 0)).any fun race =>
            decide ((race.jobs 0).removal? = some ⟨"NC1"⟩)) = true := by
    decide +kernel
  obtain ⟨⟨service, s, history⟩, hrun, hraced⟩ := (Option.any_eq_true _ _).mp hrun
  obtain ⟨race, hplay, hremoves⟩ := (Option.any_eq_true _ _).mp hraced
  obtain ⟨next, hjob⟩ := Job.removal?_some (of_decide_eq_true hremoves)
  have hsettled := (Reached.firstRun hrun).settled
  obtain ⟨hroot, hunbound, hunreached, _⟩ :=
    sweep_spares hsettled.rest hsettled.sound rfl hplay hjob
  exact ⟨service, s, history, race, next, hrun, hplay, hjob, hroot, hunbound, hunreached⟩

end Race

end Naming
