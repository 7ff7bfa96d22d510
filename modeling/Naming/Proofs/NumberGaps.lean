import Mathlib.Data.List.InsertIdx
import Naming.Proofs.CallOutcomes

namespace Naming

namespace ContextKey

/-- The number of a key, if it has one. -/
def index? (key : ContextKey) : Option Nat :=
  let index := Nat.ofDigitChars 10 (key.text.toList.drop 2) 0
  if key = ofIndex index then some index else none

theorem index?_ofIndex (index : Nat) : (ofIndex index).index? = some index := by
  have hdigits : (ofIndex index).text.toList.drop 2 = Nat.toDigits 10 index := by
    change ("NC" ++ toString index).toList.drop 2 = _
    rw [String.toList_append, Nat.toString_eq_repr, Nat.toList_repr]
    rfl
  simp only [index?, hdigits, Nat.ofDigitChars_ten_toDigits, if_true]

theorem eq_of_index? {key : ContextKey} {index : Nat} (h : key.index? = some index) :
    key = ofIndex index := by
  simp only [index?] at h
  split at h
  · rename_i hkey
    cases h
    exact hkey
  · cases h

end ContextKey

/-- A gap in the numbers of keys: those that would be handed out from some number on are handed out
with numbers that are higher by its width. -/
structure Gap where
  first : Nat
  width : Nat

namespace Gap

def key (g : Gap) (key : ContextKey) : ContextKey :=
  match key.index? with
  | none => key
  | some index => if index < g.first then key else .ofIndex (index + g.width)

def target (g : Gap) : Target → Target
  | .object reference => .object reference
  | .context key => .context (g.key key)

def binding (g : Gap) (b : Binding) : Binding := ⟨b.name, g.target b.target⟩

def bindings (g : Gap) (s : BindingSet) : BindingSet := ⟨s.entries.map g.binding, s.index⟩

def failure (g : Gap) : Failure → Failure
  | .notEmpty key => .notEmpty (g.key key)
  | .noContext key => .noContext (g.key key)
  | .rootMissing key => .rootMissing (g.key key)
  | f => f

def reply (g : Gap) : Reply → Reply
  | .resolved target => .resolved (g.target target)
  | .context key => .context (g.key key)
  | .listing bindings rest => .listing (bindings.map g.binding) (rest.map g.binding)
  | r => r

def call (g : Gap) : Call → Call
  | .bindContext name key => .bindContext name (g.key key)
  | .rebindContext name key => .rebindContext name (g.key key)
  | c => c

/-- The task that means beyond the gap what a task means without it. -/
def task (g : Gap) : Task → Task
  | .call key c => .call (g.key key) (g.call c)
  | .resolveContext key name => .resolveContext (g.key key) name
  | .handle key operation c => .handle (g.key ⟨key⟩).text operation (g.call c)
  | t => t

variable {g : Gap} {key other : ContextKey} {n : Nat}

theorem key_low (h : n < g.first) : g.key (.ofIndex n) = .ofIndex n := by
  simp only [Gap.key, ContextKey.index?_ofIndex, if_pos h]

theorem key_high (h : g.first ≤ n) : g.key (.ofIndex n) = .ofIndex (n + g.width) := by
  simp only [Gap.key, ContextKey.index?_ofIndex, if_neg (Nat.not_lt.mpr h)]

theorem key_below (h : key.Below g.first) : g.key key = key := by
  obtain ⟨i, hi, rfl⟩ := h
  exact key_low hi

/-- A key stays as it is, or has a number beyond the gap. -/
theorem key_cases (g : Gap) (key : ContextKey) : g.key key = key ∧
    (∀ i, key = .ofIndex i → i < g.first) ∨
    ∃ i, g.first ≤ i ∧ key = .ofIndex i ∧ g.key key = .ofIndex (i + g.width) := by
  cases hi : key.index? with
  | none =>
    refine .inl ⟨by simp only [Gap.key, hi], ?_⟩
    rintro i rfl
    rw [ContextKey.index?_ofIndex] at hi
    cases hi
  | some index =>
    have hkey := ContextKey.eq_of_index? hi
    subst hkey
    by_cases hlt : index < g.first
    · refine .inl ⟨key_low hlt, fun i he => ?_⟩
      rw [← ContextKey.ofIndex_injective he]
      exact hlt
    · have hle := Nat.not_lt.mp hlt
      exact .inr ⟨index, hle, rfl, key_high hle⟩

theorem key_injective (g : Gap) (h : g.key key = g.key other) : key = other := by
  rcases g.key_cases key with ⟨hk, hlow⟩ | ⟨i, hi, rfl, hk⟩
  · rcases g.key_cases other with ⟨ho, _⟩ | ⟨j, hj, rfl, ho⟩
    · rw [← hk, h, ho]
    · rw [hk, ho] at h
      have hlt := hlow _ h
      omega
  · rcases g.key_cases other with ⟨ho, hlow⟩ | ⟨j, hj, rfl, ho⟩
    · rw [hk, ho] at h
      have hlt := hlow _ h.symm
      omega
    · rw [hk, ho] at h
      have hij := ContextKey.ofIndex_injective h
      rw [show i = j by omega]

theorem key_inj (g : Gap) : g.key key = g.key other ↔ key = other :=
  ⟨g.key_injective, congrArg g.key⟩

/-- No key falls into the gap. -/
theorem key_outside (h : g.first ≤ n) (hlt : n < g.first + g.width) :
    g.key key ≠ .ofIndex n := by
  intro he
  rcases g.key_cases key with ⟨hk, hlow⟩ | ⟨i, hi, _, hk⟩
  · have hn := hlow n (hk.symm.trans he)
    omega
  · have hin := ContextKey.ofIndex_injective (hk.symm.trans he)
    omega

theorem below_key (h : key.Below n) : (g.key key).Below (n + g.width) := by
  obtain ⟨i, hi, rfl⟩ := h
  rcases Nat.lt_or_ge i g.first with hlt | hle
  · rw [key_low hlt]
    exact ⟨i, by omega, rfl⟩
  · rw [key_high hle]
    exact ⟨i + g.width, by omega, rfl⟩

/-- What has a number below the gap was not moved. -/
theorem eq_key_of_below (h : (g.key key).Below g.first) : g.key key = key := by
  rcases g.key_cases key with ⟨hk, _⟩ | ⟨i, hi, _, hk⟩
  · exact hk
  · obtain ⟨j, hj, he⟩ := h
    have hij := ContextKey.ofIndex_injective (hk.symm.trans he)
    omega

theorem target_context (g : Gap) (t : Target) : (g.target t).context? = t.context?.map g.key := by
  cases t <;> rfl

theorem target_type (g : Gap) (t : Target) : (g.target t).type = t.type := by
  cases t <;> rfl

section Sets

variable {s t : BindingSet} {b : Binding} {f : Failure}

theorem contexts_bindings (g : Gap) (s : BindingSet) :
    (g.bindings s).contexts = s.contexts.map g.key := by
  simp only [BindingSet.contexts, bindings, List.filterMap_map, List.map_filterMap]
  refine congrArg (List.filterMap · s.entries) (funext fun b => ?_)
  exact g.target_context b.target

theorem bindings_ofList (g : Gap) (entries : List Binding) :
    g.bindings (.ofList entries) = .ofList (entries.map g.binding) := by
  simp only [bindings, BindingSet.ofList, List.zipIdx_map, List.map_map]
  rfl

/-- Bindings that lead to nothing beyond the gap stay as they are. -/
theorem bindings_below (h : ∀ key ∈ s.contexts, key.Below g.first) : g.bindings s = s := by
  have hentries : s.entries.map g.binding = s.entries := by
    refine (List.map_congr_left fun b hb => ?_).trans (List.map_id _)
    obtain ⟨name, target⟩ := b
    cases target with
    | object reference => rfl
    | context key =>
      have hkey := key_below (h key (BindingSet.mem_contexts.mpr ⟨_, hb, rfl⟩))
      simp only [binding, Gap.target, hkey, id]
  unfold bindings
  rw [hentries]

theorem get?_bindings (g : Gap) (s : BindingSet) (name : Component) :
    (g.bindings s).get? name = (s.get? name).map g.binding := by
  unfold BindingSet.get? BindingSet.position?
  simp only [bindings]
  cases s.index.lookup name with
  | none => rfl
  | some position => simp only [List.getElem?_map]

theorem append_bindings (g : Gap) (s : BindingSet) (b : Binding) :
    (g.bindings s).append (g.binding b) = g.bindings (s.append b) := by
  simp [BindingSet.append, bindings, binding]

theorem place_bindings (g : Gap) (s : BindingSet) (position : Nat) (b : Binding) :
    (g.bindings s).place position (g.binding b) = g.bindings (s.place position b) := by
  simp [BindingSet.place, bindings]

theorem insert_bindings (g : Gap) (s : BindingSet) (b : Binding) :
    (g.bindings s).insert (g.binding b) = (s.insert b).map g.bindings := by
  have hposition : (g.bindings s).position? (g.binding b).name = s.position? b.name := rfl
  cases hp : s.position? b.name with
  | none =>
    rw [BindingSet.insert_new hp, BindingSet.insert_new (hposition.trans hp), append_bindings]
    rfl
  | some position =>
    rw [BindingSet.insert_taken hp, BindingSet.insert_taken (hposition.trans hp)]
    rfl

theorem replace_bindings (g : Gap) (s : BindingSet) (b : Binding) :
    (g.bindings s).replace (g.binding b) =
      (s.replace b).map fun p => (p.1.map g.binding, g.bindings p.2) := by
  have hposition : (g.bindings s).position? (g.binding b).name = s.position? b.name := rfl
  cases hp : s.position? b.name with
  | none =>
    rw [BindingSet.replace_new hp, BindingSet.replace_new (hposition.trans hp), append_bindings]
    rfl
  | some position =>
    have hentry : (g.bindings s).entries[position]? = (s.entries[position]?).map g.binding :=
      List.getElem?_map
    cases hold : s.entries[position]? with
    | none =>
      rw [hold] at hentry
      rw [BindingSet.replace_lost hp hold, BindingSet.replace_lost (hposition.trans hp) hentry]
      rfl
    | some old =>
      rw [hold] at hentry
      have htype : ∀ c : Binding, (g.binding c).type = c.type := fun c => g.target_type c.target
      have hmismatch : BindingSet.mismatch (g.binding b) = BindingSet.mismatch b := by
        unfold BindingSet.mismatch
        rw [htype]
        rfl
      rw [BindingSet.replace_found hp hold,
        BindingSet.replace_found (hposition.trans hp) hentry, htype, htype, hmismatch,
        place_bindings]
      split <;> rfl

theorem change_bindings (g : Gap) (placement : Context.Placement) (s : BindingSet) (b : Binding) :
    placement.change (g.binding b) (g.bindings s) =
      (placement.change b s).map fun p => (p.1, g.bindings p.2) := by
  cases placement with
  | fresh =>
    simp only [Context.Placement.change, insert_bindings]
    cases s.insert b <;> rfl
  | anew =>
    simp only [Context.Placement.change, replace_bindings]
    cases s.replace b <;> rfl

theorem remove_bindings (g : Gap) (s : BindingSet) (name : Component) :
    ((g.bindings s).remove name).2 = g.bindings (s.remove name).2 := by
  have hposition : (g.bindings s).position? name = s.position? name := rfl
  cases hp : s.position? name with
  | none => rw [BindingSet.remove_missing hp, BindingSet.remove_missing (hposition.trans hp)]
  | some position =>
    rw [BindingSet.remove_found hp, BindingSet.remove_found (hposition.trans hp)]
    simp only [BindingSet.drop, bindings, List.eraseIdx_map]

theorem listing_bindings (g : Gap) (s : BindingSet) (max : Nat) :
    (g.bindings s).listing max = g.reply (s.listing max) := by
  simp only [BindingSet.listing, BindingSet.page, bindings, reply, List.map_take, List.map_drop]

theorem childIn_bindings (g : Gap) (name : Name) (s : BindingSet) :
    Context.childIn name (g.bindings s) = (Context.childIn name s).map g.key := by
  unfold Context.childIn
  rw [get?_bindings]
  cases s.get? name.first.val with
  | none => rfl
  | some b =>
    obtain ⟨_, target⟩ := b
    cases target <;> rfl

theorem targetIn_bindings (g : Gap) (last : Label) (s : BindingSet) :
    Context.targetIn last (g.bindings s) = (Context.targetIn last s).map g.target := by
  unfold Context.targetIn
  rw [get?_bindings]
  cases s.get? last.val <;> rfl

end Sets

end Gap

/-- A failure that names no key. -/
def Failure.Keyless (f : Failure) : Prop := f.isStorage = false ∧ ∀ g : Gap, g.failure f = f

namespace Failure

variable {f : Failure} {s : BindingSet} {b : Binding} {name : Name} {last : Label}

theorem keyless_ofFault (fault : Name.Fault) : (ofFault fault).Keyless := ⟨rfl, fun _ => rfl⟩

theorem keyless_refused {call : Call} {operation : String}
    (h : call.refused operation = some f) : f.Keyless := by
  unfold Call.refused Operation.ofName at h
  split at h
  · rename_i hname
    split at hname
    · cases hname
    · cases hname
      cases h
      exact ⟨rfl, fun _ => rfl⟩
  · split at h
    · cases h
      exact ⟨rfl, fun _ => rfl⟩
    · cases h

theorem keyless_insert (h : s.insert b = .error f) : f.Keyless := by
  cases hp : s.position? b.name with
  | none =>
    rw [BindingSet.insert_new hp] at h
    cases h
  | some position =>
    rw [BindingSet.insert_taken hp] at h
    cases h
    exact ⟨rfl, fun _ => rfl⟩

theorem keyless_mismatch (b : Binding) : (BindingSet.mismatch b).Keyless := by
  unfold BindingSet.mismatch
  split
  · exact ⟨rfl, fun _ => rfl⟩
  · split
    · exact ⟨rfl, fun _ => rfl⟩
    · exact keyless_ofFault _

theorem keyless_change {placement : Context.Placement} (h : placement.change b s = .error f) :
    f.Keyless := by
  cases placement with
  | fresh => exact keyless_insert (map_error h)
  | anew => exact BindingSet.replace_error (map_error h) ▸ keyless_mismatch b

theorem keyless_childIn (h : Context.childIn name s = .error f) : f.Keyless := by
  unfold Context.childIn at h
  split at h
  · cases h
    exact ⟨rfl, fun _ => rfl⟩
  · split at h
    · cases h
    · cases h
      exact ⟨rfl, fun _ => rfl⟩

theorem keyless_targetIn (h : Context.targetIn last s = .error f) : f.Keyless := by
  unfold Context.targetIn at h
  split at h
  · cases h
    exact ⟨rfl, fun _ => rfl⟩
  · cases h

end Failure

namespace Gap

/-- Failures that say the same on both sides of a gap. -/
inductive Matches (g : Gap) : Failure → Failure → Prop
  | told {f : Failure} (own : f.isStorage = false) : g.Matches f (g.failure f)
  | oversized (key : ContextKey) :
      g.Matches (.storage (Disk.oversized key)) (.storage (Disk.oversized (g.key key)))

/-- Results that say the same on both sides of a gap, when they do whose values are related. -/
inductive Agree {α β : Type} (g : Gap) (R : α → β → Prop) : Except Failure α → Except Failure β →
    Prop
  | done {a : α} {b : β} (both : R a b) : g.Agree R (.ok a) (.ok b)
  | failed {f f' : Failure} (both : g.Matches f f') : g.Agree R (.error f) (.error f')

namespace Agree

variable {α β γ δ : Type} {g : Gap} {R : α → β → Prop} {S : γ → δ → Prop}
  {x : Except Failure α} {y : Except Failure β}

theorem bind {f : α → Except Failure γ} {f' : β → Except Failure δ} (h : g.Agree R x y)
    (hf : ∀ a b, x = .ok a → R a b → g.Agree S (f a) (f' b)) :
    g.Agree S (x.bind f) (y.bind f') := by
  cases h with
  | done both => exact hf _ _ rfl both
  | failed both => exact .failed both

theorem map {f : α → γ} {f' : β → δ} (h : g.Agree R x y) (hf : ∀ a b, R a b → S (f a) (f' b)) :
    g.Agree S (x.map f) (y.map f') := by
  cases h with
  | done both => exact .done (hf _ _ both)
  | failed both => exact .failed both

theorem mono {R' : α → β → Prop} (h : g.Agree R x y) (hR : ∀ a b, R a b → R' a b) :
    g.Agree R' x y := by
  cases h with
  | done both => exact .done (hR _ _ both)
  | failed both => exact .failed both

theorem keyless {f : Failure} (h : f.Keyless) :
    g.Agree R (.error f : Except Failure α) (.error f : Except Failure β) := by
  have hmatch := Matches.told (g := g) h.1
  rw [h.2] at hmatch
  exact .failed hmatch

/-- What can fail only without naming a key. -/
theorem of_map {f : α → β} (h : ∀ f, x = .error f → f.Keyless) :
    g.Agree (fun a b => b = f a) x (x.map f) := by
  cases x with
  | error failure => exact keyless (h failure rfl)
  | ok a => exact .done rfl

end Agree

end Gap

end Naming
