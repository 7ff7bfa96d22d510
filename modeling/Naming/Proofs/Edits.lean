import Naming.Proofs.Resolution

namespace Naming

/-- What has a result in two parts has one in each. -/
theorem bind_ok {α β ε : Type} {x : Except ε α} {f : α → Except ε β} {b : β}
    (h : x.bind f = .ok b) : ∃ a, x = .ok a ∧ f a = .ok b := by
  cases x with
  | error failure => cases h
  | ok a => exact ⟨a, rfl, h⟩

theorem map_error {α β ε : Type} {x : Except ε α} {f : α → β} {failure : ε}
    (h : x.map f = .error failure) : x = .error failure := by
  cases x with
  | error other =>
    cases h
    rfl
  | ok a => cases h

theorem mapError_ok {α ε ε' : Type} {x : Except ε α} {f : ε → ε'} {a : α}
    (h : x.mapError f = .ok a) : x = .ok a := by
  cases x with
  | error failure => cases h
  | ok b =>
    cases h
    rfl

namespace BindingSet

variable {s t : BindingSet} {b : Binding} {key : ContextKey}

theorem mem_contexts : key ∈ s.contexts ↔ ∃ b ∈ s.entries, b.target = .context key := by
  unfold contexts
  rw [List.mem_filterMap]
  constructor
  · rintro ⟨b, hb, hk⟩
    refine ⟨b, hb, ?_⟩
    cases ht : b.target with
    | object reference =>
      rw [ht] at hk
      cases hk
    | context other =>
      rw [ht] at hk
      cases hk
      rfl
  · rintro ⟨b, hb, hk⟩
    exact ⟨b, hb, by rw [hk]; rfl⟩

theorem contexts_empty : empty.contexts = [] := rfl

/-- Sets that have no entries but those of another set and one more lead nowhere else. -/
theorem mem_contexts_of_entries (h : ∀ c ∈ t.entries, c ∈ s.entries ∨ c = b)
    (hk : key ∈ t.contexts) : key ∈ s.contexts ∨ b.target = .context key := by
  obtain ⟨c, hc, htarget⟩ := mem_contexts.mp hk
  rcases h c hc with hs | rfl
  · exact .inl (mem_contexts.mpr ⟨c, hs, htarget⟩)
  · exact .inr htarget

theorem mem_append {c : Binding} (hc : c ∈ (s.append b).entries) : c ∈ s.entries ∨ c = b := by
  simpa [append] using hc

theorem mem_insert {c : Binding} (h : s.insert b = .ok t) (hc : c ∈ t.entries) :
    c ∈ s.entries ∨ c = b := by
  obtain ⟨_, rfl⟩ := insert_ok h
  exact mem_append hc

theorem mem_replace {old : Option Binding} {c : Binding} (h : s.replace b = .ok (old, t))
    (hc : c ∈ t.entries) : c ∈ s.entries ∨ c = b := by
  rcases replace_ok h with ⟨_, rfl⟩ | ⟨_, _, ⟨_, rfl⟩ | ⟨_, _, _, rfl⟩⟩
  · exact mem_append hc
  · exact .inl hc
  · exact List.mem_or_eq_of_mem_set hc

theorem mem_remove {name : Component} {c : Binding} (hc : c ∈ (s.remove name).2.entries) :
    c ∈ s.entries := by
  cases hp : s.position? name with
  | none =>
    rw [remove_missing hp] at hc
    exact hc
  | some position =>
    rw [remove_found hp] at hc
    exact List.mem_of_mem_eraseIdx hc

theorem mem_change {placement : Context.Placement} {a : Unit} {c : Binding}
    (h : placement.change b s = .ok (a, t)) (hc : c ∈ t.entries) : c ∈ s.entries ∨ c = b := by
  rcases Context.Placement.change_cases h with ⟨_, hinsert⟩ | ⟨_, _, hreplace⟩
  · exact mem_insert hinsert hc
  · exact mem_replace hreplace hc

end BindingSet

namespace Disk

/-- Whether a target may be bound in a context: a context has to have a record, as that has which
is bound in itself. -/
def accepts (d : Disk) (key : ContextKey) : Target → Except Failure Unit
  | .object _ => .ok ()
  | .context other =>
    if other = key then .ok () else if d.contains other then .ok () else .error (.noContext other)

/-- The disk with new bindings in the record of a context. -/
def put (d : Disk) (key : ContextKey) (bindings : BindingSet) : Except Failure Disk :=
  (d.save key bindings).mapError .ofStorage

/-- Binds a label in a context. -/
def bindLast (d : Disk) (key : ContextKey) (last : Label) (target : Target)
    (placement : Context.Placement) : Except Failure Disk := do
  let bindings ← d.look key .ok
  d.accepts key target
  let (_, bindings) ← placement.change ⟨last.val, target⟩ bindings
  d.put key bindings

/-- Binds a name, looked up from a context on. -/
def bind (d : Disk) (key : ContextKey) (name : Name) (target : Target)
    (placement : Context.Placement) : Except Failure Disk := do
  let (parent, last) ← d.walkFrom key name.first name.rest
  d.bindLast parent last target placement

/-- Takes a label out of a context. -/
def unbindLast (d : Disk) (key : ContextKey) (last : Label) : Except Failure Disk := do
  let bindings ← d.look key .ok
  if (bindings.get? last.val).isSome then d.put key (bindings.remove last.val).2
  else throw (.notFound (.single last))

def unbind (d : Disk) (key : ContextKey) (name : Name) : Except Failure Disk := do
  let (parent, last) ← d.walkFrom key name.first name.rest
  d.unbindLast parent last

/-- Removes the record of an empty context other than the root. -/
def destroy (d : Disk) (root key : ContextKey) : Except Failure Disk := do
  if key = root then throw (.badOperation "the root context cannot be destroyed")
  d.look key fun s => if s.isEmpty then .ok () else .error (.notEmpty key)
  return d.remove key

/-- Hands out a key and writes an empty record under it. -/
def create (d : Disk) : Except Failure (ContextKey × Disk) := do
  let (key, d) ← d.allocate.mapError .ofStorage
  return (key, ← d.put key .empty)

variable {d e : Disk} {key other : ContextKey} {bindings : BindingSet}

theorem contains_eq (d : Disk) (key : ContextKey) :
    d.contains key = (d.contexts.get? (place key)).isSome := rfl

theorem contains_of_load (h : d.load key = .ok (some bindings)) : d.contains key = true := by
  obtain ⟨raw, hg, _⟩ := load_some_iff.mp h
  rw [contains_eq, hg]
  rfl

theorem load_of_not_contains (h : d.contains key = false) : d.load key = .ok none := by
  rw [contains_eq, Option.isSome_eq_false_iff, Option.isNone_iff_eq_none] at h
  exact load_none_iff.mpr h

theorem put_eq_if (d : Disk) (key : ContextKey) (bindings : BindingSet) : d.put key bindings =
    if (Record.mk Record.currentVersion key bindings).fits then
      .ok ⟨d.contexts.insert (place key) (Record.mk Record.currentVersion key bindings).encode,
        d.marks⟩
    else .error (.storage (oversized key)) := by
  unfold put save
  dsimp only
  split <;> rfl

theorem put_ok (h : d.put key bindings = .ok e) : d.save key bindings = .ok e :=
  mapError_ok h

theorem put_eq (h : d.put key bindings = .ok e) :
    e = ⟨d.contexts.insert (place key) (Record.mk Record.currentVersion key bindings).encode,
      d.marks⟩ := by
  have hsave := put_ok h
  simp only [save] at hsave
  split at hsave
  · cases hsave
    rfl
  · cases hsave

theorem contains_put (h : d.put key bindings = .ok e) (other : ContextKey) :
    e.contains other = (decide (other = key) || d.contains other) := by
  rw [contains_eq, contains_eq, get?_save (put_ok h)]
  by_cases hk : other = key
  · simp [hk]
  · have hplace : place other ≠ place key := fun hp => hk (place_injective hp)
    simp [hk, hplace]

theorem contains_remove (d : Disk) (key other : ContextKey) :
    (d.remove key).contains other = (decide (other ≠ key) && d.contains other) := by
  rw [contains_eq, contains_eq, get?_remove]
  by_cases hk : other = key
  · simp [hk]
  · have hplace : place other ≠ place key := fun hp => hk (place_injective hp)
    simp [hk, hplace]

theorem links_put (h : d.put key bindings = .ok e) (other : ContextKey) :
    e.links other = if other = key then bindings.contexts else d.links other := by
  by_cases hk : other = key
  · rw [if_pos hk, hk]
    have hlinks := links_of_load (load_save (put_ok h))
    exact hlinks
  · have hplace : place other ≠ place key := fun hp => hk (place_injective hp)
    rw [if_neg hk]
    exact links_congr ((get?_save (put_ok h) _).trans (if_neg hplace))

theorem links_of_not_contains (h : d.contains key = false) : d.links key = [] :=
  links_of_missing (load_of_not_contains h)

theorem highWaterMark_congr (h : e.marks = d.marks) : e.highWaterMark = d.highWaterMark := by
  unfold highWaterMark
  rw [h]

theorem root?_congr (h : e.marks = d.marks) : e.root? = d.root? := by
  unfold root?
  rw [h]

theorem look_ok {α : Type} {view : BindingSet → Except Failure α} {a : α}
    (h : d.look key view = .ok a) :
    ∃ bindings, d.load key = .ok (some bindings) ∧ view bindings = .ok a := by
  unfold look found at h
  cases hl : d.load key with
  | error failure => simp [hl, Except.bind] at h
  | ok r =>
    cases r with
    | none => simp [hl, Except.bind] at h
    | some bindings =>
      simp only [hl, Except.bind] at h
      exact ⟨bindings, rfl, h⟩

/-- What binding a label comes to: the record of the context has the bindings it had and at most
one more, whose target may be bound there. -/
theorem bindLast_ok {last : Label} {target : Target} {placement : Context.Placement}
    (h : d.bindLast key last target placement = .ok e) : ∃ bindings changed,
      d.load key = .ok (some bindings) ∧ d.accepts key target = .ok () ∧
      placement.change ⟨last.val, target⟩ bindings = .ok ((), changed) ∧
      d.put key changed = .ok e := by
  obtain ⟨bindings, hlook, h⟩ := bind_ok h
  obtain ⟨_, hload, hsame⟩ := look_ok hlook
  cases hsame
  obtain ⟨_, haccept, h⟩ := bind_ok h
  obtain ⟨p, hchange, h⟩ := bind_ok h
  exact ⟨bindings, p.2, hload, haccept, hchange, h⟩

theorem unbindLast_ok {last : Label} (h : d.unbindLast key last = .ok e) : ∃ bindings,
    d.load key = .ok (some bindings) ∧ (bindings.get? last.val).isSome = true ∧
    d.put key (bindings.remove last.val).2 = .ok e := by
  obtain ⟨bindings, hlook, h⟩ := bind_ok h
  obtain ⟨_, hload, hsame⟩ := look_ok hlook
  cases hsame
  split at h
  · rename_i hbound
    exact ⟨bindings, hload, hbound, h⟩
  · cases h

/-- A context may be bound if it has a record, as has the context it is bound in. -/
theorem accepts_context (h : d.accepts key (.context other) = .ok ())
    (hkey : d.contains key = true) : d.contains other = true := by
  by_cases hself : other = key
  · rw [hself]
    exact hkey
  · simp only [accepts, if_neg hself] at h
    split at h
    · assumption
    · cases h

/-- The record of a context that is bound in leads nowhere it did not lead before, except to what
has a record. -/
theorem bindLast_put {last : Label} {target : Target} {placement : Context.Placement}
    (h : d.bindLast key last target placement = .ok e) : ∃ changed, d.contains key = true ∧
      (∀ other ∈ changed.contexts, other ∈ d.links key ∨ d.contains other = true) ∧
      d.put key changed = .ok e := by
  obtain ⟨bindings, changed, hload, haccept, hchange, hput⟩ := bindLast_ok h
  have hstored := contains_of_load hload
  refine ⟨changed, hstored, fun other ho => ?_, hput⟩
  have hentries := fun c hc => BindingSet.mem_change (c := c) hchange hc
  rcases BindingSet.mem_contexts_of_entries hentries ho with hold | hnew
  · exact .inl (links_of_load hload ▸ hold)
  · have htarget : target = .context other := hnew
    rw [htarget] at haccept
    exact .inr (accepts_context haccept hstored)

theorem unbindLast_put {last : Label} (h : d.unbindLast key last = .ok e) :
    ∃ changed, d.contains key = true ∧ (∀ other ∈ changed.contexts, other ∈ d.links key) ∧
      d.put key changed = .ok e := by
  obtain ⟨bindings, hload, _, hput⟩ := unbindLast_ok h
  refine ⟨_, contains_of_load hload, fun other ho => ?_, hput⟩
  obtain ⟨b, hb, htarget⟩ := BindingSet.mem_contexts.mp ho
  rw [links_of_load hload]
  exact BindingSet.mem_contexts.mpr ⟨b, BindingSet.mem_remove hb, htarget⟩

end Disk

end Naming
