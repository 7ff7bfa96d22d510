import Naming.Proofs.Operations

namespace Naming

variable {α : Type}

namespace Server

/-- What is kept in memory of a context is what its record holds, whatever else the disk holds. -/
def Agrees (s : Server) : Prop :=
  ∀ key bindings, s.memory.resident.get? key = some bindings →
    ∃ stored, s.store.disk.load key = .ok (some stored) ∧ stored.entries = bindings.entries

theorem Sound.agrees {s : Server} (h : s.Sound) : s.Agrees :=
  fun key bindings hr => ⟨bindings, h.resident key bindings hr, rfl⟩

/-- What a request leaves alone that only looks at contexts. -/
structure Untouched (s t : Server) : Prop where
  locks : t.memory.locks.Idle
  gate : t.memory.gate = s.memory.gate
  unbound : t.memory.unbound = s.memory.unbound
  disk : t.store.disk = s.store.disk
  fails : t.store.faults.fails = s.store.faults.fails
  agrees : s.Agrees → t.Agrees

theorem Untouched.trans {s t u : Server} (h : s.Untouched t) (h' : t.Untouched u) :
    s.Untouched u :=
  ⟨h'.locks, h'.gate.trans h.gate, h'.unbound.trans h.unbound, h'.disk.trans h.disk,
    h'.fails.trans h.fails, h'.agrees ∘ h.agrees⟩

/-- What an activation finds agrees with the record. -/
theorem Agrees.found {s : Server} (h : s.Agrees) {key : ContextKey} {bindings : BindingSet}
    {dirty : Bool} (hf : s.found key .existing = .ok (bindings, dirty)) :
    ∃ stored, s.store.disk.load key = .ok (some stored) ∧ stored.entries = bindings.entries := by
  unfold Server.found at hf
  split at hf
  · rename_i found hr
    cases hf
    exact h key bindings hr
  · split at hf
    · cases hf
    · rename_i hl
      cases hf
      exact ⟨bindings, Store.load_ok hl, rfl⟩
    · rename_i hcreate
      cases hcreate
    · cases hf

end Server

namespace Active

/-- An activation that only looks answers what the view gives, and touches no record. -/
theorem serve_looking (key : ContextKey) (operation : Operation)
    (view : BindingSet → Except Failure α) {s : Server} (hs : s.memory.locks.Idle) :
    ∃ t, (during key operation .existing (look view)).serve s =
        some ((s.found key .existing).bind fun p => view p.1, t) ∧ s.Untouched t := by
  rw [serve_during key operation .existing _ hs]
  have hd := s.looked_disk key
  have hfails := (s.looked_alike key).fails
  cases hf : s.found key .existing with
  | error failure =>
    refine ⟨_, rfl, rfl, rfl, rfl, hd, hfails, fun ha k bindings hk => ?_⟩
    exact hd.symm ▸ ha k bindings hk
  | ok found =>
    obtain ⟨bindings, dirty⟩ := found
    simp only [play_look, Option.map_some]
    refine ⟨_, rfl, LockTable.idle_release_single _ _ _, rfl, rfl, hd, hfails, fun ha k b hk => ?_⟩
    rcases get?_keeps hk with ⟨rfl, rfl, _, _⟩ | ⟨_, hr⟩
    · exact hd.symm ▸ ha.found hf
    · exact hd.symm ▸ ha k b hr

end Active

namespace Sweep

/-- A visit of a context finds the links of its record, or fails to load the record. -/
theorem serve_links (key : ContextKey) {s : Server} (hs : s.memory.locks.Idle)
    (ha : s.Agrees) : ∃ result t, (links key).serve s = some (result, t) ∧ s.Untouched t ∧
      ((result = .ok (s.store.disk.links key) ∧ ∃ r, s.store.disk.load key = .ok r) ∨
        ∃ cause, result = .error (.ofStorage cause) ∧ s.memory.resident.get? key = none ∧
          (s.store.load key).1 = .error cause) := by
  obtain ⟨t, ht, hu⟩ := Active.serve_looking key .list (fun b => .ok b.contexts) hs
  unfold links
  rw [Request.serve_bind, Request.serve_attempt, ht]
  cases hf : s.found key .existing with
  | ok found =>
    obtain ⟨bindings, dirty⟩ := found
    obtain ⟨stored, hl, he⟩ := ha.found hf
    refine ⟨_, t, rfl, hu, .inl ⟨?_, _, hl⟩⟩
    rw [Disk.links_of_load hl]
    simp only [BindingSet.contexts, he]
  | error failure =>
    unfold Server.found at hf
    split at hf
    · cases hf
    · rename_i hr
      split at hf
      · rename_i cause hl
        cases hf
        refine ⟨_, t, ?_, hu, .inr ⟨cause, rfl, hr, hl⟩⟩
        cases cause <;> rfl
      · cases hf
      · cases hf
      · rename_i hl _
        cases hf
        have hmissing := Store.load_ok hl
        exact ⟨_, t, rfl, hu, .inl ⟨congrArg _ (Disk.links_of_missing hmissing).symm, _, hmissing⟩⟩

/-- A visit that cannot load the record fails, for whatever reason it cannot. -/
theorem serve_links_failing {key : ContextKey} {s : Server} {cause : StorageFailure}
    (hs : s.memory.locks.Idle) (hr : s.memory.resident.get? key = none)
    (hl : (s.store.load key).1 = .error cause) :
    ∃ t, (links key).serve s = some (.error (.ofStorage cause), t) ∧ s.Untouched t := by
  obtain ⟨t, ht, hu⟩ := Active.serve_looking key .list (fun b => .ok b.contexts) hs
  have hf : s.found key .existing = .error (.ofStorage cause) := by
    simp only [Server.found, hr, hl]
  unfold links
  rw [Request.serve_bind, Request.serve_attempt, ht, hf]
  exact ⟨t, by cases cause <;> rfl, hu⟩

/-- How far the walk of a sweep has come. -/
structure Walk where
  seen : List ContextKey
  queue : List ContextKey
  server : Server

namespace Walk

/-- A walk passes over what it has seen, and follows the links of what it has not. -/
inductive Step : Walk → Walk → Prop
  | skip {key : ContextKey} {seen queue : List ContextKey} {s : Server} (known : key ∈ seen) :
      Step ⟨seen, key :: queue, s⟩ ⟨seen, queue, s⟩
  | visit {key : ContextKey} {seen queue next : List ContextKey} {s t : Server}
      (unknown : key ∉ seen) (found : (links key).serve s = some (.ok next, t)) :
      Step ⟨seen, key :: queue, s⟩ ⟨key :: seen, queue ++ next, t⟩

/-- What a walk from the root comes to. -/
inductive Reached (root : ContextKey) (s : Server) : Walk → Prop
  | start : Reached root s ⟨[], [root], s⟩
  | step {w w' : Walk} (before : Reached root s w) (last : Step w w') : Reached root s w'

/-- What holds of a walk at any time. -/
structure Sensible (root : ContextKey) (s : Server) (w : Walk) : Prop where
  untouched : s.Untouched w.server
  agrees : w.server.Agrees
  distinct : w.seen.Nodup
  reachable : ∀ key, key ∈ w.seen ∨ key ∈ w.queue → s.store.disk.Reaches root key
  root : root ∈ w.seen ∨ root ∈ w.queue
  loaded : ∀ key ∈ w.seen, ∃ r, s.store.disk.load key = .ok r
  followed : ∀ key ∈ w.seen, ∀ next ∈ s.store.disk.links key, next ∈ w.seen ∨ next ∈ w.queue

variable {root : ContextKey} {s : Server} {w w' : Walk}

/-- What one step of a walk preserves. -/
theorem Step.sensible (h : Step w w') (hw : w.Sensible root s) : w'.Sensible root s := by
  obtain ⟨hu, ha, hd, hr, hroot, hl, hf⟩ := hw
  cases h with
  | skip known =>
    rename_i key seen queue u
    have hqueue : ∀ k, k ∈ seen ∨ k ∈ key :: queue → k ∈ seen ∨ k ∈ queue := by
      intro k hk
      rcases hk with hk | hk
      · exact .inl hk
      · rcases List.mem_cons.mp hk with rfl | hk
        · exact .inl known
        · exact .inr hk
    exact ⟨hu, ha, hd, fun k hk => hr k (hk.imp_right (List.mem_cons_of_mem _)), hqueue _ hroot, hl,
      fun k hk next hn => hqueue _ (hf k hk next hn)⟩
  | visit unknown found =>
    rename_i key seen queue next u t
    obtain ⟨result, t', ht, hut, hresult⟩ := serve_links key hu.locks ha
    rw [found] at ht
    cases ht
    have hdisk : u.store.disk = s.store.disk := hu.disk
    rw [hdisk] at hresult
    rcases hresult with ⟨hnext, r, hload⟩ | ⟨cause, hfail, _, _⟩
    · cases hnext
      have hkey : s.store.disk.Reaches root key := hr key (.inr List.mem_cons_self)
      have hmoved : ∀ k, k ∈ seen ∨ k ∈ key :: queue →
          k ∈ key :: seen ∨ k ∈ queue ++ s.store.disk.links key := by
        intro k hk
        rcases hk with hk | hk
        · exact .inl (List.mem_cons_of_mem _ hk)
        · rcases List.mem_cons.mp hk with rfl | hk
          · exact .inl List.mem_cons_self
          · exact .inr (List.mem_append_left _ hk)
      refine ⟨hu.trans hut, hut.agrees ha, List.nodup_cons.mpr ⟨unknown, hd⟩, ?_, hmoved _ hroot,
        ?_, ?_⟩
      · intro k hk
        rcases hk with hk | hk
        · rcases List.mem_cons.mp hk with rfl | hk
          · exact hkey
          · exact hr k (.inl hk)
        · rcases List.mem_append.mp hk with hk | hk
          · exact hr k (.inr (List.mem_cons_of_mem _ hk))
          · exact .step hkey hk
      · intro k hk
        rcases List.mem_cons.mp hk with rfl | hk
        · exact ⟨r, hload⟩
        · exact hl k hk
      · intro k hk next hn
        rcases List.mem_cons.mp hk with rfl | hk
        · exact .inr (List.mem_append_right _ hn)
        · exact hmoved _ (hf k hk next hn)
    · cases hfail

/-- A walk that starts on a server at rest. -/
theorem Reached.sensible (h : Reached root s w) (hs : s.memory.locks.Idle) (ha : s.Agrees) :
    w.Sensible root s := by
  induction h with
  | start =>
    refine ⟨⟨hs, rfl, rfl, rfl, rfl, id⟩, ha, List.nodup_nil, ?_, .inr List.mem_cons_self, nofun,
      nofun⟩
    intro key hk
    rcases hk with hk | hk
    · cases hk
    · exact List.mem_singleton.mp hk ▸ .root
  | step before last ih => exact last.sensible ih

/-- A walk sees no more contexts than the root and what the links lead to. -/
theorem Sensible.room (h : w.Sensible root s) {key : ContextKey} (hq : key ∈ w.queue)
    (unknown : key ∉ w.seen) : w.seen.length < s.store.disk.linkCount + 1 := by
  have hsub : key :: w.seen ⊆ root :: s.store.disk.allLinks := by
    intro k hk
    rcases List.mem_cons.mp hk with rfl | hk
    · exact (h.reachable k (.inr hq)).mem
    · exact (h.reachable k (.inl hk)).mem
  have hle := (List.nodup_cons.mpr ⟨unknown, h.distinct⟩).length_le_of_subset hsub
  rw [List.length_cons, List.length_cons, Disk.length_allLinks] at hle
  exact hle

/-- When the queue is empty, the walk has seen what can be reached and nothing else. -/
theorem Sensible.mem_seen_iff (h : w.Sensible root s) (hq : w.queue = []) {key : ContextKey} :
    key ∈ w.seen ↔ s.store.disk.Reaches root key := by
  have hempty : ∀ k, k ∈ w.seen ∨ k ∈ w.queue → k ∈ w.seen := by
    intro k hk
    rcases hk with hk | hk
    · exact hk
    · rw [hq] at hk
      cases hk
  constructor
  · intro hk
    exact h.reachable key (.inl hk)
  · intro hr
    induction hr with
    | root => exact hempty _ h.root
    | step before link ih => exact hempty _ (h.followed _ ih _ link)

/-- A walk that goes no further: nothing is left in the queue, or the next visit fails. -/
inductive Ended : Walk → Except Failure (Option (List ContextKey)) → Server → Prop
  | finished {seen : List ContextKey} {s : Server} : Ended ⟨seen, [], s⟩ (.ok (some seen)) s
  | failed {key : ContextKey} {seen queue : List ContextKey} {s t : Server} {failure : Failure}
      (unknown : key ∉ seen) (found : (links key).serve s = some (.error failure, t)) :
      Ended ⟨seen, key :: queue, s⟩ (.error failure) t

/-- A walk passes over what it has seen until the next visit. -/
theorem skips (h : Reached root s w) : ∃ queue, Reached root s ⟨w.seen, queue, w.server⟩ ∧
    ∀ key rest, queue = key :: rest → key ∉ w.seen := by
  obtain ⟨seen, queue, u⟩ := w
  induction queue with
  | nil => exact ⟨[], h, nofun⟩
  | cons key queue ih =>
    by_cases known : key ∈ seen
    · exact ih (.step h (.skip known))
    · refine ⟨key :: queue, h, fun k rest he => ?_⟩
      cases he
      exact known

/-- A walk ends, as each visit sees one more context. -/
theorem ends {w : Walk} (hs : s.memory.locks.Idle) (ha : s.Agrees) (h : Reached root s w) :
    ∃ w' result t, Reached root s w' ∧ Ended w' result t := by
  obtain ⟨queue, hr, hnew⟩ := skips h
  cases queue with
  | nil => exact ⟨_, _, _, hr, .finished⟩
  | cons key queue =>
    -- the visit adds one of finitely many contexts to those seen, which bounds the recursion
    have unknown := hnew key queue rfl
    have hw := hr.sensible hs ha
    have room : w.seen.length < s.store.disk.linkCount + 1 :=
      hw.room List.mem_cons_self unknown
    obtain ⟨result, t, hserve, _, _⟩ := serve_links key hw.untouched.locks hw.agrees
    cases result with
    | error failure => exact ⟨_, _, _, hr, .failed unknown hserve⟩
    | ok next => exact ends hs ha (.step hr (.visit unknown hserve))
termination_by s.store.disk.linkCount + 1 - w.seen.length
decreasing_by
  simp only [List.length_cons]
  omega

end Walk

theorem reach_done (limit : Nat) (seen : List ContextKey) :
    reach limit seen [] = pure (some seen) := by
  cases limit <;> rfl

theorem reach_skip (limit : Nat) {seen queue : List ContextKey} {key : ContextKey}
    (known : key ∈ seen) : reach limit seen (key :: queue) = reach limit seen queue := by
  cases limit with
  | zero => simp [reach, known]
  | succ limit => simp [reach, known]

theorem reach_visit (limit : Nat) {seen queue : List ContextKey} {key : ContextKey}
    (unknown : key ∉ seen) : reach (limit + 1) seen (key :: queue) = (do
      let next ← links key
      reach limit (key :: seen) (queue ++ next)) := by
  simp [reach, unknown]

/-- The search goes where the walk goes, as long as its limit leaves room for all links. -/
theorem Walk.Reached.reach {root : ContextKey} {s : Server} {w : Walk} (h : Reached root s w)
    (hs : s.memory.locks.Idle) (ha : s.Agrees) {limit : Nat}
    (hl : s.store.disk.linkCount < limit) :
    ∃ left, s.store.disk.linkCount < left + w.seen.length ∧
      (Sweep.reach limit [] [root]).serve s = (Sweep.reach left w.seen w.queue).serve w.server := by
  induction h with
  | start => exact ⟨limit, hl, rfl⟩
  | step before last ih =>
    obtain ⟨left, hleft, he⟩ := ih
    have hw := before.sensible hs ha
    cases last with
    | skip known => exact ⟨left, hleft, he.trans (by rw [reach_skip left known])⟩
    | visit unknown found =>
      have room := hw.room List.mem_cons_self unknown
      cases left with
      | zero => omega
      | succ left =>
        refine ⟨left, ?_, he.trans ?_⟩
        · simp only [List.length_cons] at hleft ⊢
          omega
        · rw [reach_visit left unknown, Request.serve_bind, found]

/-- With room for all links the search ends as the walk does. -/
theorem Walk.Reached.reach_ended {root : ContextKey} {s t : Server} {w : Walk}
    {result : Except Failure (Option (List ContextKey))} (h : Reached root s w)
    (he : Ended w result t) (hs : s.memory.locks.Idle) (ha : s.Agrees) {limit : Nat}
    (hl : s.store.disk.linkCount < limit) :
    (Sweep.reach limit [] [root]).serve s = some (result, t) := by
  obtain ⟨left, hleft, hserve⟩ := h.reach hs ha hl
  have hw := h.sensible hs ha
  rw [hserve]
  cases he with
  | finished => rw [reach_done, Request.serve_pure]
  | failed unknown found =>
    have room := hw.room List.mem_cons_self unknown
    cases left with
    | zero => omega
    | succ left => rw [reach_visit left unknown, Request.serve_bind, found]

end Sweep

end Naming
