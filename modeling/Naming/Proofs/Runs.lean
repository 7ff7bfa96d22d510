import Naming.Call

namespace Naming

variable {α β : Type}

namespace Job

@[simp] theorem run_pure (a : α) (s : Server) : (pure a : Job α).run s = some (a, s) := rfl

theorem run_bind (t : Job α) (f : α → Job β) (s : Server) :
    (t >>= f).run s = (t.run s).bind fun p => (f p.1).run p.2 := by
  induction t generalizing s with
  | done a => rfl
  | step action next ih =>
    change (step action fun r => (next r).bind f).run s = _
    simp only [run]
    cases action.perform? s with
    | none => rfl
    | some p => exact ih p.1 p.2

theorem run_bind_some {t : Job α} {f : α → Job β} {s s' : Server} {a : α}
    (h : t.run s = some (a, s')) : (t >>= f).run s = (f a).run s' := by
  rw [run_bind, h]
  rfl

theorem run_act (action : Action) (s : Server) : (act action).run s = action.perform? s := by
  simp only [act, run]
  cases action.perform? s <;> rfl

/-- All steps that a job may take have a property, whatever the steps before them answer. -/
def All (p : Action → Prop) : Job α → Prop
  | done _ => True
  | step action next => p action ∧ ∀ r, (next r).All p

theorem All.bind {p : Action → Prop} {t : Job α} {f : α → Job β} (ht : t.All p)
    (hf : ∀ a, (f a).All p) : (t >>= f).All p := by
  induction t with
  | done a => exact hf a
  | step action next ih => exact ⟨ht.1, fun r => ih r (ht.2 r)⟩

theorem All.act {p : Action → Prop} {action : Action} (h : p action) : (act action).All p :=
  ⟨h, fun _ => trivial⟩

theorem all_steps (t : Job α) : t.All fun _ => True := by
  induction t with
  | done a => trivial
  | step action next ih => exact ⟨trivial, ih⟩

/-- What every allowed step keeps, a job that ends has kept. -/
theorem All.keeps {p : Action → Prop} {I : Server → Server → Prop} (refl : ∀ s, I s s)
    (trans : ∀ s t u, I s t → I t u → I s u)
    (step : ∀ a, p a → ∀ s r t, a.perform? s = some (r, t) → I s t)
    {t : Job α} (ht : t.All p) {s s' : Server} {a : α} (h : t.run s = some (a, s')) : I s s' := by
  induction t generalizing s with
  | done b =>
    simp only [run, Option.some.injEq, Prod.mk.injEq] at h
    exact h.2 ▸ refl s
  | step action next ih =>
    simp only [run] at h
    cases hp : action.perform? s with
    | none => simp [hp] at h
    | some q =>
      simp only [hp] at h
      exact trans _ _ _ (step action ht.1 s q.1 q.2 hp) (ih q.1 (ht.2 q.1) h)

end Job

namespace Request

theorem serve_bind (r : Request α) (f : α → Request β) (s : Server) :
    (r >>= f).serve s = match r.serve s with
      | none => none
      | some (.error failure, t) => some (.error failure, t)
      | some (.ok a, t) => (f a).serve t := by
  change Job.run (Job.bind r _) s = _
  have h := Job.run_bind r (ExceptT.bindCont f) s
  change Job.run (Job.bind r (ExceptT.bindCont f)) s = _ at h
  rw [h]
  simp only [serve]
  cases Job.run r s with
  | none => rfl
  | some p =>
    obtain ⟨e, t⟩ := p
    cases e <;> rfl

theorem serve_ofExcept (e : Except Failure α) (s : Server) :
    (ofExcept e).serve s = some (e, s) := rfl

/-- A sequence that ends has failed in its first part, or has gone through both. -/
theorem serve_bind_cases {r : Request α} {f : α → Request β} {s t : Server}
    {result : Except Failure β} (h : (r >>= f).serve s = some (result, t)) :
    (∃ failure, r.serve s = some (.error failure, t) ∧ result = .error failure) ∨
      ∃ a u, r.serve s = some (.ok a, u) ∧ (f a).serve u = some (result, t) := by
  rw [serve_bind] at h
  cases hr : r.serve s with
  | none =>
    rw [hr] at h
    cases h
  | some p =>
    obtain ⟨e, u⟩ := p
    rw [hr] at h
    cases e with
    | error failure =>
      cases h
      exact .inl ⟨failure, rfl, rfl⟩
    | ok a => exact .inr ⟨a, u, rfl, h⟩

/-- Putting a result in another form changes nothing else. -/
theorem serve_map_cases {r : Request α} {f : α → β} {s t : Server} {result : Except Failure β}
    (h : (r >>= fun a => pure (f a)).serve s = some (result, t)) :
    ∃ outcome, r.serve s = some (outcome, t) ∧ result = outcome.map f := by
  rcases serve_bind_cases h with ⟨failure, hr, rfl⟩ | ⟨a, u, hr, hp⟩
  · exact ⟨_, hr, rfl⟩
  · cases hp
    exact ⟨_, hr, rfl⟩

@[simp] theorem serve_pure (a : α) (s : Server) :
    (pure a : Request α).serve s = some (.ok a, s) := rfl

@[simp] theorem serve_throw (failure : Failure) (s : Server) :
    (throw failure : Request α).serve s = some (.error failure, s) := rfl

end Request

end Naming
