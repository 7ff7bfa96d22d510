import Naming.Proofs.Numbering

namespace Naming

variable {α : Type} {marks : Bool} {s t : Server}

/-- No lock is held and the gate is open. -/
structure Server.Ready (s : Server) : Prop where
  idle : s.memory.locks.Idle
  opened : s.memory.gate.closed = false

namespace Orderly

variable {r : Request α} {result : Except Failure α}

theorem ready (h : Orderly marks true r) (hs : s.Ready) (hr : r.serve s = some (result, t)) :
    t.Ready :=
  have hk := h.kept hs.idle (fun _ => hs.opened) hr
  ⟨hk.locks, hk.gate ▸ hs.opened⟩

theorem sound (h : Orderly marks true r) (hs : s.Ready) (hsound : s.Sound)
    (hr : r.serve s = some (result, t)) : t.Sound :=
  (h.kept hs.idle (fun _ => hs.opened) hr).sound hsound

theorem quiet (h : Orderly false true r) (hs : s.Ready) (hr : r.serve s = some (result, t)) :
    t.memory.unbound = s.memory.unbound :=
  h.unbound hs.idle (fun _ => hs.opened) hr

end Orderly

namespace Server

/-- The key has a number below the counter. -/
def Counted (s : Server) (key : ContextKey) : Prop :=
  ∃ j n, key = .ofIndex j ∧ j < n ∧ s.store.disk.highWaterMark = .ok n

/-- What a request changes about which contexts count as unbound: one is handed out, or one is
settled, or none is either. -/
structure Marks (s t : Server) (handed settled : Option ContextKey) : Prop where
  unbound : ∀ key, key ∈ t.memory.unbound ↔
    handed = some key ∨ (settled ≠ some key ∧ key ∈ s.memory.unbound)
  counted : ∀ key, handed = some key → t.Counted key

theorem marks_none (h : t.memory.unbound = s.memory.unbound) : s.Marks t none none := by
  refine ⟨fun key => ?_, nofun⟩
  rw [h]
  simp

theorem marks_handed {key : ContextKey} (hc : t.Counted key)
    (h : t.memory.unbound = key :: s.memory.unbound.filter (· ≠ key)) :
    s.Marks t (some key) none := by
  refine ⟨fun other => ?_, fun other he => Option.some.inj he ▸ hc⟩
  rw [h]
  by_cases he : other = key
  · simp [he]
  · simp [he, Ne.symm he]

theorem marks_settled {key : ContextKey}
    (h : t.memory.unbound = s.memory.unbound.filter (· ≠ key)) : s.Marks t none (some key) := by
  refine ⟨fun other => ?_, nofun⟩
  rw [h]
  by_cases he : other = key
  · simp [he]
  · simp [he, Ne.symm he]

/-- A key that counts as unbound keeps its number below the counter. -/
theorem Marks.numbered {handed settled : Option ContextKey} (h : s.Marks t handed settled)
    (hc : s.store.disk.Counts t.store.disk) (hn : s.Numbered) : t.Numbered := by
  obtain ⟨n, hs, hbelow⟩ := hn
  obtain ⟨m, hle, ht⟩ := hc n hs
  refine ⟨m, ht, fun key hk => ?_⟩
  rcases (h.unbound key).mp hk with hhanded | ⟨_, hbefore⟩
  · obtain ⟨j, i, hkey, hlt, hi⟩ := h.counted key hhanded
    have him : i = m := Except.ok.inj (hi.symm.trans ht)
    exact ⟨j, him ▸ hlt, hkey⟩
  · obtain ⟨j, hlt, hkey⟩ := hbelow key hbefore
    exact ⟨j, Nat.lt_of_lt_of_le hlt hle, hkey⟩

end Server

/-- A request that settles no mark keeps the keys that count as unbound below the counter. -/
theorem Orderly.numbered {r : Request α} {result : Except Failure α} (h : Orderly false true r)
    (hs : s.Ready) (hn : s.Numbered) (hr : r.serve s = some (result, t)) : t.Numbered :=
  (Server.marks_none (h.quiet hs hr)).numbered (Job.run_counts hr) hn

theorem filter_absent {key : ContextKey} {keys : List ContextKey} (h : key ∉ keys) :
    keys.filter (· ≠ key) = keys := by
  refine List.filter_eq_self.mpr fun k hk => ?_
  have hne : k ≠ key := fun he => h (he ▸ hk)
  simpa using hne

theorem Server.Ready.entered (h : s.Ready) : s.entered.Ready := ⟨h.idle, h.opened⟩

theorem Server.Ready.note (h : s.Ready) (event : Log.Event) : (s.note event).Ready :=
  ⟨h.idle, h.opened⟩

theorem serve_clearUnbound (key : ContextKey) (s : Server) :
    (Request.act (.clearUnbound key)).serve s =
      some (.ok (), { s with memory.unbound := s.memory.unbound.filter (· ≠ key) }) :=
  Request.serve_act _ _

theorem serve_markUnbound (key : ContextKey) (s : Server) :
    (Request.act (.markUnbound key)).serve s =
      some (.ok (), { s with
        memory.unbound := key :: s.memory.unbound.filter (· ≠ key) }) :=
  Request.serve_act _ _

/-- A context that was just made does not count as unbound. -/
theorem createContext_absent {key : ContextKey} (hs : s.Ready) (hn : s.Numbered)
    (h : createContext.serve s = some (.ok key, t)) : key ∉ t.memory.unbound := by
  have hcreate : Orderly false true createContext := createContext_orderly
  rw [hcreate.quiet hs h]
  intro hmem
  obtain ⟨n, hn, hbelow⟩ := hn
  obtain ⟨j, hj, hkey⟩ := hbelow key hmem
  obtain ⟨i, _, hi, hnumber, _⟩ := createContext_fresh hs.opened h
  have hin : i = n := Except.ok.inj (hi.symm.trans hn)
  have hij := ContextKey.ofIndex_injective (hnumber.symm.trans hkey)
  omega

/-- A context that is made to be bound later counts as unbound. -/
theorem createUnbound_marks {result : Except Failure ContextKey} (hs : s.Ready)
    (h : createUnbound.serve s = some (result, t)) :
    (∃ failure, result = .error failure ∧ t.memory.unbound = s.memory.unbound) ∨
      ∃ key, result = .ok key ∧ t.Counted key ∧
        t.memory.unbound = key :: s.memory.unbound.filter (· ≠ key) := by
  obtain ⟨u, hu, rfl⟩ := Request.serve_gated_cases hs.opened h
  rcases Request.serve_bind_cases hu with ⟨failure, hc, rfl⟩ | ⟨key, v, hc, hrest⟩
  · have hu := createContext_orderly.quiet hs.entered hc
    exact .inl ⟨failure, rfl, hu⟩
  · have hv := createContext_orderly.quiet hs.entered hc
    obtain ⟨n, m, _, hk, hlt, hm⟩ := createContext_fresh hs.entered.opened hc
    rw [Request.serve_bind, serve_markUnbound] at hrest
    cases hrest
    refine .inr ⟨key, rfl, ⟨n, m, hk, hlt, hm⟩, ?_⟩
    exact congrArg (fun unbound => key :: unbound.filter (· ≠ key)) hv

namespace Context

/-- The context that a target is, no longer counts as unbound once it is bound. -/
def clearing (unbound : List ContextKey) : Target → List ContextKey
  | .context key => unbound.filter (· ≠ key)
  | .object _ => unbound

theorem bindLast_marks {c : Context} {last : Label} {target : Target} {placement : Placement}
    {operation : Operation} {result : Except Failure Unit} (hs : s.Ready)
    (h : (c.bindLast last target placement operation).serve s = some (result, t)) :
    (∃ failure, result = .error failure ∧ t.memory.unbound = s.memory.unbound) ∨
      result = .ok () ∧ t.memory.unbound = clearing s.memory.unbound target := by
  obtain ⟨u, hu, rfl⟩ := Request.serve_gated_cases hs.opened h
  have huse : Orderly false true (Active.during c.key operation .existing do
      demandRecord target
      Active.edit (placement.change ⟨last.val, target⟩)
      Active.commit) :=
    .during _ _ _ (.bind (proper_demandRecord target) fun _ =>
      .bind (.edit fun _ _ _ => placement.change_regular _) fun _ => .commit)
  rcases Request.serve_bind_cases hu with ⟨failure, hc, rfl⟩ | ⟨_, v, hc, hrest⟩
  · have hu := huse.quiet hs.entered hc
    exact .inl ⟨failure, rfl, hu⟩
  · have hv := huse.quiet hs.entered hc
    cases target with
    | context key =>
      dsimp only at hrest
      rw [serve_clearUnbound] at hrest
      cases hrest
      exact .inr ⟨rfl, congrArg (fun unbound => unbound.filter (· ≠ key)) hv⟩
    | object reference =>
      cases hrest
      exact .inr ⟨rfl, hv⟩

theorem bindTarget_marks {c : Context} {name : Name} {target : Target} {placement : Placement}
    {operation : Operation} {result : Except Failure Unit} (hs : s.Ready)
    (h : (c.bindTarget name target placement operation).serve s = some (result, t)) :
    (∃ failure, result = .error failure ∧ t.memory.unbound = s.memory.unbound) ∨
      result = .ok () ∧ t.memory.unbound = clearing s.memory.unbound target := by
  have hwalk : Orderly false true (c.walk name) := c.walk_orderly name
  rcases Request.serve_bind_cases h with ⟨failure, hw, rfl⟩ | ⟨_, v, hw, hrest⟩
  · exact .inl ⟨failure, rfl, hwalk.quiet hs hw⟩
  · rw [← hwalk.quiet hs hw]
    exact bindLast_marks (hwalk.ready hs hw) hrest

theorem newContext_marks {c : Context} {result : Except Failure Context} (hs : s.Ready)
    (h : c.newContext.serve s = some (result, t)) :
    (∃ failure, result = .error failure ∧ t.memory.unbound = s.memory.unbound) ∨
      ∃ created, result = .ok created ∧ t.Counted created.key ∧
        t.memory.unbound = created.key :: s.memory.unbound.filter (· ≠ created.key) := by
  have hdemand : Orderly false true (c.demand .newContext) := c.demand_orderly _
  rcases Request.serve_bind_cases h with ⟨failure, hd, rfl⟩ | ⟨_, u, hd, hrest⟩
  · exact .inl ⟨failure, rfl, hdemand.quiet hs hd⟩
  · obtain ⟨outcome, hcreate, rfl⟩ := Request.serve_map_cases hrest
    rw [← hdemand.quiet hs hd]
    rcases createUnbound_marks (hdemand.ready hs hd) hcreate with
      ⟨failure, rfl, hu⟩ | ⟨key, rfl, hcounted, hu⟩
    · exact .inl ⟨failure, rfl, hu⟩
    · exact .inr ⟨{ c with key := key }, rfl, hcounted, hu⟩

theorem destroy_marks {c : Context} {result : Except Failure Unit} (hs : s.Ready)
    (h : c.destroy.serve s = some (result, t)) :
    (∃ failure, result = .error failure ∧ t.memory.unbound = s.memory.unbound) ∨
      result = .ok () ∧ t.memory.unbound = s.memory.unbound.filter (· ≠ c.key) := by
  have huse : Orderly false true (Active.during c.key .destroy .existing do
      Active.look fun s => if s.isEmpty then .ok () else .error (.notEmpty c.key)
      Active.remove) := .during _ _ _ (.bind (Active.proper_look _) fun _ => .remove)
  have hrest : ∀ s, s.Ready → (do
      Active.during c.key .destroy .existing do
        Active.look fun s => if s.isEmpty then .ok () else .error (.notEmpty c.key)
        Active.remove
      Request.act (.clearUnbound c.key) : Request Unit).serve s = some (result, t) →
      (∃ failure, result = .error failure ∧ t.memory.unbound = s.memory.unbound) ∨
        result = .ok () ∧ t.memory.unbound = s.memory.unbound.filter (· ≠ c.key) := by
    intro s hs h
    rcases Request.serve_bind_cases h with ⟨failure, hc, rfl⟩ | ⟨_, v, hc, hclear⟩
    · exact .inl ⟨failure, rfl, huse.quiet hs hc⟩
    · have hv := huse.quiet hs hc
      rw [serve_clearUnbound] at hclear
      cases hclear
      exact .inr ⟨rfl, congrArg (fun unbound => unbound.filter (· ≠ c.key)) hv⟩
  unfold destroy at h
  split at h
  · rcases Request.serve_bind_cases h with ⟨failure, hc, rfl⟩ | ⟨_, v, hc, _⟩
    · cases hc
      exact .inl ⟨_, rfl, rfl⟩
    · cases hc
  · exact hrest s hs h

/-- After a new context could not be bound, all that happens concerns that context alone. -/
theorem cleanup_marks (c : Context) (failure : Failure) (name : Name)
    {result : Except Failure Context} (hs : s.Ready) (hkey : c.key ∉ s.memory.unbound)
    (h : (do
      Request.note ⟨.warn, .context, "Bind of new context failed; destroying it",
        [("key", .text c.key.text), ("name", .text name.text), ("error", .text failure.message)]⟩
      match ← c.destroy.attempt with
      | .ok () => pure ()
      | .error cleanup =>
        Request.note ⟨.warn, .context, "Could not destroy unbound context",
          [("key", .text c.key.text), ("error", .text cleanup.message)]⟩
      throw failure : Request Context).serve s = some (result, t)) :
    t.memory.unbound = s.memory.unbound := by
  rcases Request.serve_bind_cases h with ⟨_, hnote, _⟩ | ⟨_, u, hnote, hrest⟩
  · cases hnote
  · cases hnote
    obtain ⟨destroyed, v, hd, hthrow⟩ := Request.serve_attempt_cases hrest
    have hv : v.memory.unbound = s.memory.unbound := by
      rcases destroy_marks (hs.note _) hd with ⟨_, _, hsame⟩ | ⟨_, hcleared⟩
      · exact hsame
      · exact hcleared.trans (filter_absent hkey)
    cases destroyed with
    | ok _ =>
      cases hthrow
      exact hv
    | error cleanup =>
      cases hthrow
      exact hv

/-- A context that is made and bound in one go never counts as unbound. -/
theorem bindNewContext_marks {c : Context} {name : Name} {result : Except Failure Context}
    (hs : s.Ready) (hn : s.Numbered) (h : (c.bindNewContext name).serve s = some (result, t)) :
    t.memory.unbound = s.memory.unbound := by
  have hwalk : Orderly false true (c.walk name) := c.walk_orderly name
  have hcreate : Orderly false true createContext := createContext_orderly
  rcases Request.serve_bind_cases h with ⟨failure, hw, rfl⟩ | ⟨⟨parent, last⟩, v, hw, hrest⟩
  · exact hwalk.quiet hs hw
  · have hv := hwalk.ready hs hw
    have hvn : v.Numbered := hwalk.numbered hs hn hw
    obtain ⟨u, hu, rfl⟩ := Request.serve_gated_cases hv.opened hrest
    refine Eq.trans ?_ (hwalk.quiet hs hw)
    rcases Request.serve_bind_cases hu with ⟨failure, hc, rfl⟩ | ⟨key, w, hc, hbind⟩
    · have hu := hcreate.quiet hv.entered hc
      exact hu
    · have hkept := hcreate.quiet hv.entered hc
      have hwr := hcreate.ready hv.entered hc
      -- the key is new, so no mark is lost when it is cleared
      have habsent := createContext_absent hv.entered hvn hc
      obtain ⟨bound, x, hb, hafter⟩ := Request.serve_attempt_cases hbind
      have hx : x.memory.unbound = w.memory.unbound := by
        rcases bindLast_marks hwr hb with ⟨_, _, hsame⟩ | ⟨_, hcleared⟩
        · exact hsame
        · exact hcleared.trans (filter_absent habsent)
      have horderly := parent.bindLast_orderly last (.context key) .fresh .bindNewContext
      have hxr := horderly.ready hwr hb
      refine Eq.trans ?_ (hx.trans hkept)
      cases bound with
      | ok _ =>
        cases hafter
        rfl
      | error failure =>
        have hcleaned := cleanup_marks { c with key := key } failure (.single last) hxr
          (hx ▸ habsent) hafter
        exact hcleaned

end Context

end Naming
