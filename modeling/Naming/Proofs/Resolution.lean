import Naming.Proofs.Walks

namespace Naming

variable {α : Type} {d e : Disk} {s : Server}

namespace Disk

/-- What a look at a context gives when nothing is kept in memory. -/
def look (d : Disk) (key : ContextKey) (view : BindingSet → Except Failure α) :
    Except Failure α :=
  (d.found key .existing).bind fun p => view p.1

/-- The context that all labels but the last lead to from a context, with the last label. -/
def walkFrom (d : Disk) (key : ContextKey) (first : Label) :
    List Label → Except Failure (ContextKey × Label)
  | [] => .ok (key, first)
  | next :: rest => do
    let child ← d.look key (Context.childIn ⟨first, next :: rest⟩)
    d.walkFrom child next rest

/-- What a name is bound to, read from a context on. -/
def resolve (d : Disk) (key : ContextKey) (name : Name) : Except Failure Target := do
  let (parent, last) ← d.walkFrom key name.first name.rest
  d.look parent (Context.targetIn last)

end Disk

/-- A sound server at rest with this disk, which can always load. -/
structure Server.Shows (s : Server) (d : Disk) : Prop where
  disk : s.store.disk = d
  idle : s.memory.locks.Idle
  sound : s.Sound
  spared : s.store.Spares .load

theorem Server.Shows.look (h : s.Shows d) (key : ContextKey) (operation : Operation)
    (view : BindingSet → Except Failure α) :
    ∃ t, (Active.during key operation .existing (Active.look view)).serve s =
      some (d.look key view, t) ∧ t.Shows d := by
  obtain ⟨t, ht, hu⟩ := Active.serve_looking key operation view h.idle
  have hsound := ((Orderly.look key operation .existing view : Orderly false false _).kept
    h.idle nofun ht).sound h.sound
  rw [h.sound.found_eq h.spared, h.disk] at ht
  exact ⟨t, ht, hu.disk.trans h.disk, hu.locks, hsound, fun n => hu.fails ▸ h.spared n⟩

namespace Context

theorem walkFrom_shows (c : Context) (first : Label) (rest : List Label) (h : s.Shows d) :
    ∃ t, (c.walkFrom first rest).serve s =
      some ((d.walkFrom c.key first rest).map fun p => ({ c with key := p.1 }, p.2), t) ∧
      t.Shows d := by
  induction rest generalizing c first s with
  | nil => exact ⟨s, rfl, h⟩
  | cons next rest ih =>
    obtain ⟨t, ht, hshows⟩ := h.look c.key .resolve (childIn ⟨first, next :: rest⟩)
    unfold walkFrom child Disk.walkFrom
    rw [Request.serve_bind, Request.serve_bind, ht]
    cases d.look c.key (childIn ⟨first, next :: rest⟩) with
    | error failure => exact ⟨t, rfl, hshows⟩
    | ok key => exact ih { c with key := key } next hshows

/-- Resolving a name answers what the disk tells. -/
theorem resolve_shows (c : Context) (name : Name) (h : s.Shows d) :
    ∃ t, (c.resolve name).serve s = some (d.resolve c.key name, t) ∧ t.Shows d := by
  obtain ⟨t, ht, hshows⟩ := c.walkFrom_shows name.first name.rest h
  unfold resolve walk Disk.resolve
  rw [Request.serve_bind, ht]
  cases d.walkFrom c.key name.first name.rest with
  | error failure => exact ⟨t, rfl, hshows⟩
  | ok p => exact hshows.look p.1 .resolve (targetIn p.2)

end Context

namespace Disk

variable {root key : ContextKey}

theorem look_congr (view : BindingSet → Except Failure α) (h : e.load key = d.load key) :
    e.look key view = d.look key view := by
  simp only [look, found, h]

/-- A child is a context that the record leads to. -/
theorem child_mem_links {name : Name} {child : ContextKey}
    (h : d.look key (Context.childIn name) = .ok child) : child ∈ d.links key := by
  cases hl : d.load key with
  | error failure => simp [look, found, hl, Except.bind] at h
  | ok r =>
    cases r with
    | none => simp [look, found, hl, Except.bind] at h
    | some bindings =>
      simp only [look, found, hl, Except.bind, Context.childIn] at h
      rw [links_of_load hl]
      split at h
      · cases h
      · rename_i b hb
        split at h
        · rename_i k hk
          cases h
          exact List.mem_filterMap.mpr ⟨b, BindingSet.mem_of_get? hb, by rw [hk]; rfl⟩
        · cases h

/-- A walk along a name never leaves what can be reached. -/
theorem Reaches.walkFrom {first last : Label} {rest : List Label} {parent : ContextKey}
    (hr : d.Reaches root key) (h : d.walkFrom key first rest = .ok (parent, last)) :
    d.Reaches root parent := by
  induction rest generalizing key first with
  | nil =>
    cases h
    exact hr
  | cons next rest ih =>
    simp only [Disk.walkFrom] at h
    cases hc : d.look key (Context.childIn ⟨first, next :: rest⟩) with
    | error failure => simp [hc, bind, Except.bind] at h
    | ok child =>
      simp only [hc, bind, Except.bind] at h
      exact ih (.step hr (child_mem_links hc)) h

theorem walkFrom_congr (h : ∀ k, d.Reaches root k → e.load k = d.load k)
    (hr : d.Reaches root key) (first : Label) (rest : List Label) :
    e.walkFrom key first rest = d.walkFrom key first rest := by
  induction rest generalizing key first with
  | nil => rfl
  | cons next rest ih =>
    simp only [walkFrom]
    rw [look_congr _ (h key hr)]
    cases hc : d.look key (Context.childIn ⟨first, next :: rest⟩) with
    | error failure => rfl
    | ok child => exact ih (.step hr (child_mem_links hc)) next

/-- Names that start at a context that can be reached mean the same on disks that agree on all that
can be reached. -/
theorem resolve_congr (h : ∀ k, d.Reaches root k → e.load k = d.load k)
    (hr : d.Reaches root key) (name : Name) : e.resolve key name = d.resolve key name := by
  unfold resolve
  rw [walkFrom_congr h hr]
  cases hw : d.walkFrom key name.first name.rest with
  | error failure => rfl
  | ok p => exact look_congr _ (h p.1 (hr.walkFrom hw))

end Disk

end Naming
