import Naming.Proofs.CallOutcomes
import Naming.Proofs.Histories
import Naming.Proofs.CallsSerialised

namespace Naming

namespace Disk

/-- What a label is bound to in the record of a context, if there is one and it is bound there. -/
def bound (d : Disk) (key : ContextKey) (label : Label) : Option Target :=
  match d.load key with
  | .ok (some s) => (s.get? label.val).map (·.target)
  | _ => none

variable {d e : Disk} {root key : ContextKey} {label last : Label} {bindings : BindingSet}

theorem bound_of_load (h : d.load key = .ok (some bindings)) (label : Label) :
    d.bound key label = (bindings.get? label.val).map (·.target) := by
  rw [bound, h]

theorem load_put (h : d.put key bindings = .ok e) (hb : bindings.Regular) :
    e.load key = .ok (some bindings) := by
  rw [load_save (put_ok h), hb.eq_ofList]

theorem load_removed (d : Disk) (key : ContextKey) : (d.remove key).load key = .ok none :=
  load_none_iff.mpr ((get?_remove d key _).trans (if_pos rfl))

theorem bound_bindLast {target : Target} {placement : Context.Placement} (hd : d.Regular)
    (h : d.bindLast key last target placement = .ok e) :
    (placement = .fresh → d.bound key last = none) ∧
      ∀ label, e.bound key label = if last = label then some target else d.bound key label := by
  obtain ⟨bindings, changed, hload, _, hchange, hput⟩ := bindLast_ok h
  have hregular := hd.regular hload
  have hchanged := load_put hput (placement.change_regular _ hregular hchange)
  have hget : (placement = .fresh → bindings.get? last.val = none) ∧ ∀ name, changed.get? name =
      if last.val = name then some ⟨last.val, target⟩ else bindings.get? name := by
    rcases Context.Placement.change_cases hchange with ⟨_, hinsert⟩ | ⟨rfl, _, hreplace⟩
    · exact ⟨fun _ => (hregular.get?_insert hinsert last.val).1,
        fun name => (hregular.get?_insert hinsert name).2⟩
    · exact ⟨nofun, hregular.get?_replace hreplace⟩
  refine ⟨fun hfresh => ?_, fun label => ?_⟩
  · rw [bound_of_load hload, hget.1 hfresh]
    rfl
  · rw [bound_of_load hchanged, bound_of_load hload, hget.2]
    simp only [Subtype.val_inj]
    split <;> rfl

theorem bound_unbindLast (hd : d.Regular) (h : d.unbindLast key last = .ok e) (label : Label) :
    e.bound key label = if last = label then none else d.bound key label := by
  obtain ⟨bindings, hload, _, hput⟩ := unbindLast_ok h
  have hregular := hd.regular hload
  have hremoved := load_put hput (hregular.remove last.val)
  rw [bound_of_load hremoved, bound_of_load hload, hregular.get?_remove]
  simp only [Subtype.val_inj]
  split <;> rfl

theorem bound_missing (h : d.load key = .ok none) (label : Label) : d.bound key label = none := by
  rw [bound, h]

/-- Only an empty context is destroyed. -/
theorem load_destroy (h : d.destroy root key = .ok e) :
    ∃ bindings, d.load key = .ok (some bindings) ∧ bindings.isEmpty = true ∧
      e.load key = .ok none := by
  have hgone := d.load_removed key
  rw [← destroy_ok h] at hgone
  unfold destroy at h
  split at h
  · cases h
  · obtain ⟨_, hlook, _⟩ := bind_ok h
    obtain ⟨bindings, hload, hview⟩ := look_ok hlook
    split at hview
    · rename_i hempty
      exact ⟨bindings, hload, hempty, hgone⟩
    · cases hview

theorem bound_destroy (h : d.destroy root key = .ok e) (label : Label) :
    d.bound key label = none ∧ e.bound key label = none := by
  obtain ⟨bindings, hload, hempty, hgone⟩ := load_destroy h
  refine ⟨?_, bound_missing hgone label⟩
  rw [bound_of_load hload, BindingSet.get?_of_isEmpty hempty]
  rfl

end Disk

namespace Call

/-- What a call binds a label to when it succeeds: to a target, to nothing, or to what it was bound
to before. -/
def assigns (label : Label) : Call → Option (Option Target)
  | bind name reference | rebind name reference =>
    if name = .single label then some (some (.object reference)) else none
  | bindContext name key | rebindContext name key =>
    if name = .single label then some (some (.context key)) else none
  | unbind name => if name = .single label then some none else none
  | _ => none

/-- Whether a call needs a label to be free. -/
def claims (label : Label) : Call → Bool
  | bind name _ | bindContext name _ => name = .single label
  | _ => false

theorem assigns_of_claims {call : Call} {label : Label} (h : call.claims label = true) :
    ∃ target, call.assigns label = some (some target) := by
  cases call with
  | bind name reference => exact ⟨_, if_pos (of_decide_eq_true h)⟩
  | bindContext name key => exact ⟨_, if_pos (of_decide_eq_true h)⟩
  | _ => cases h

theorem Local.creates {call : Call} (h : call.Local) : call.creates = false := by
  cases h <;> rfl

/-- Nothing else leaves a label unbound. -/
theorem eq_unbind {call : Call} {label : Label} (h : call.assigns label = some none) :
    call = .unbind (.single label) := by
  cases call with
  | unbind name =>
    simp only [assigns] at h
    split at h
    · rename_i hname
      rw [hname]
    · cases h
  | bind | bindContext | rebind | rebindContext =>
    simp only [assigns] at h
    split at h <;> cases h
  | _ => cases h

/-- What comes of a call that makes no context: it does as it is told, or it fails and changes
nothing. It fails only if it is told to, unless the store is faulty. -/
inductive Takes (c : Context) (faulty : Prop) (call : Call) (d : Disk) :
    Except Failure Reply → Disk → Prop
  | done {reply : Reply} {e : Disk} (told : call.told c d = .ok (reply, e)) :
      Takes c faulty call d (.ok reply) e
  | failed {failure : Failure} (reason : faulty ∨ call.told c d = .error failure) :
      Takes c faulty call d (.error failure) d

variable {c : Context} {faulty : Prop} {call : Call} {d e : Disk} {label : Label}
  {answer : Except Failure Reply}

/-- What a local call that succeeds changes about the context. -/
theorem Local.told_bound (h : call.Local) (hd : d.Sound) {reply : Reply}
    (htold : call.told c d = .ok (reply, e)) (label : Label) :
    e.bound c.key label = (call.assigns label).getD (d.bound c.key label) := by
  have hbound : ∀ (last : Label) (target : Target) (placement : Context.Placement),
      (d.bind c.key (.single last) target placement).map (Reply.finished, ·) = .ok (reply, e) →
      e.bound c.key label = if last = label then some target else d.bound c.key label := by
    intro last target placement htold
    obtain ⟨e', hdone, he⟩ := Store.map_ok htold
    cases he
    exact (Disk.bound_bindLast hd.allRegular hdone).2 label
  have hname : ∀ last : Label, Name.single last = .single label ↔ last = label :=
    fun last => ⟨fun he => congrArg Name.first he, congrArg _⟩
  cases h with
  | bind last _ | bindContext last _ | rebind last _ | rebindContext last _ =>
    rw [hbound last _ _ htold]
    simp only [assigns, hname]
    split <;> rfl
  | resolve last | list max =>
    obtain ⟨_, _, he⟩ := Store.map_ok htold
    cases he
    rfl
  | unbind last =>
    obtain ⟨e', hdone, he⟩ := Store.map_ok htold
    cases he
    have hunbound : d.unbindLast c.key last = .ok e := hdone
    rw [Disk.bound_unbindLast hd.allRegular hunbound]
    simp only [assigns, hname]
    split <;> rfl
  | destroy =>
    obtain ⟨e', hdone, he⟩ := Store.map_ok htold
    cases he
    have hempty := Disk.bound_destroy hdone label
    exact hempty.2.trans hempty.1.symm

/-- A local call succeeds only on a context with a record, and leaves it a record unless it is to
destroy it. -/
theorem Local.told_load (h : call.Local) {reply : Reply}
    (htold : call.told c d = .ok (reply, e)) : ∃ bindings, d.load c.key = .ok (some bindings) ∧
      (call ≠ .destroy → ∃ changed, e.load c.key = .ok (some changed)) := by
  have hbound : ∀ (last : Label) (target : Target) (placement : Context.Placement),
      (d.bind c.key (.single last) target placement).map (Reply.finished, ·) = .ok (reply, e) →
      ∃ bindings changed, d.load c.key = .ok (some bindings) ∧
        e.load c.key = .ok (some changed) := by
    intro last target placement htold
    obtain ⟨e', hdone, he⟩ := Store.map_ok htold
    cases he
    obtain ⟨bindings, changed, hload, _, _, hput⟩ := Disk.bindLast_ok hdone
    exact ⟨bindings, _, hload, Disk.load_save (Disk.put_ok hput)⟩
  cases h with
  | bind last _ | bindContext last _ | rebind last _ | rebindContext last _ =>
    obtain ⟨bindings, changed, hload, hchanged⟩ := hbound last _ _ htold
    exact ⟨bindings, hload, fun _ => ⟨changed, hchanged⟩⟩
  | resolve last =>
    obtain ⟨_, hview, he⟩ := Store.map_ok htold
    cases he
    have hlook : d.look c.key (Context.targetIn last) = _ := hview
    obtain ⟨bindings, hload, _⟩ := Disk.look_ok hlook
    exact ⟨bindings, hload, fun _ => ⟨bindings, hload⟩⟩
  | list max =>
    obtain ⟨_, hview, he⟩ := Store.map_ok htold
    cases he
    obtain ⟨bindings, hload, _⟩ := Disk.look_ok hview
    exact ⟨bindings, hload, fun _ => ⟨bindings, hload⟩⟩
  | unbind last =>
    obtain ⟨e', hdone, he⟩ := Store.map_ok htold
    cases he
    have hunbound : d.unbindLast c.key last = .ok e := hdone
    obtain ⟨bindings, hload, _, hput⟩ := Disk.unbindLast_ok hunbound
    exact ⟨bindings, hload, fun _ => ⟨_, Disk.load_save (Disk.put_ok hput)⟩⟩
  | destroy =>
    obtain ⟨e', hdone, he⟩ := Store.map_ok htold
    cases he
    obtain ⟨bindings, hload, _⟩ := Disk.load_destroy hdone
    exact ⟨bindings, hload, fun hne => absurd rfl hne⟩

namespace Takes

variable {target : Option Target}

/-- A call that succeeds is told to. -/
theorem told (h : call.Takes c faulty d answer e) (hok : answer.isOk = true) :
    ∃ reply, call.told c d = .ok (reply, e) := by
  cases h with
  | done told => exact ⟨_, told⟩
  | failed => cases hok

theorem assigned (h : call.Takes c faulty d answer e) (hlocal : call.Local) (hd : d.Sound)
    (hok : answer.isOk = true) (ha : call.assigns label = some target) :
    e.bound c.key label = target := by
  obtain ⟨reply, htold⟩ := h.told hok
  rw [hlocal.told_bound hd htold, ha]
  rfl

theorem binds {target : Target} (h : call.Takes c faulty d answer e) (hlocal : call.Local)
    (hd : d.Sound) (hok : answer.isOk = true) (ha : call.assigns label = some (some target)) :
    e.bound c.key label ≠ none := by
  rw [h.assigned hlocal hd hok ha]
  nofun

/-- What a label is bound to changes only by a call that succeeds and binds it anew. -/
theorem bound_cases (h : call.Takes c faulty d answer e) (hlocal : call.Local) (hd : d.Sound)
    (label : Label) : e.bound c.key label = d.bound c.key label ∨
      answer.isOk = true ∧ call.assigns label = some (e.bound c.key label) := by
  cases h with
  | done told =>
    have hbound := hlocal.told_bound hd told label
    cases ha : call.assigns label with
    | none =>
      rw [ha] at hbound
      exact .inl hbound
    | some target =>
      rw [ha] at hbound
      exact .inr ⟨rfl, congrArg some hbound.symm⟩
  | failed => exact .inl rfl

/-- What needs a free label does not succeed on one that is bound. -/
theorem claimed (h : call.Takes c faulty d answer e) (hlocal : call.Local) (hd : d.Sound)
    (hok : answer.isOk = true) (hc : call.claims label = true) : d.bound c.key label = none := by
  obtain ⟨reply, htold⟩ := h.told hok
  cases hlocal with
  | bind last _ | bindContext last _ =>
    obtain ⟨e', hdone, he⟩ := Store.map_ok htold
    have hname : last = label := congrArg Name.first (of_decide_eq_true hc)
    exact hname ▸ (Disk.bound_bindLast hd.allRegular hdone).1 rfl
  | _ => cases hc

theorem destroyed (h : Call.destroy.Takes c faulty d answer e) (hok : answer.isOk = true) :
    (∀ label, d.bound c.key label = none) ∧ e.load c.key = .ok none := by
  obtain ⟨reply, htold⟩ := h.told hok
  obtain ⟨e', hdone, he⟩ := Store.map_ok htold
  cases he
  obtain ⟨_, _, _, hgone⟩ := Disk.load_destroy hdone
  exact ⟨fun label => (Disk.bound_destroy hdone label).1, hgone⟩

/-- Without a record nothing succeeds. -/
theorem missing (h : call.Takes c faulty d answer e) (hlocal : call.Local)
    (hd : d.load c.key = .ok none) : answer.isOk = false ∧ e = d := by
  cases h with
  | done told =>
    obtain ⟨_, hload, _⟩ := hlocal.told_load told
    rw [hd] at hload
    cases hload
  | failed => exact ⟨rfl, rfl⟩

theorem stored (h : call.Takes c faulty d answer e) (hlocal : call.Local)
    (hne : call = .destroy → answer.isOk = false)
    (hd : ∃ bindings, d.load c.key = .ok (some bindings)) :
    ∃ bindings, e.load c.key = .ok (some bindings) := by
  cases h with
  | done told =>
    obtain ⟨_, _, hkept⟩ := hlocal.told_load told
    exact hkept fun hdestroy => nomatch hne hdestroy
  | failed => exact hd

/-- A free name is bound, unless the record cannot be written. -/
theorem bind_free {reference : String}
    (h : (Call.bind (.single label) reference).Takes c faulty d answer e) (hf : ¬ faulty)
    (hd : d.Sound) {bindings : BindingSet} (hl : d.load c.key = .ok (some bindings))
    (hfree : d.bound c.key label = none) :
    answer.isOk = true ∨ ∃ cause, answer = .error (.storage cause) := by
  cases h with
  | done => exact .inl rfl
  | failed reason =>
    rename_i failure
    have hfailed : d.bindLast c.key label (.object reference) .fresh = .error failure :=
      map_error (reason.resolve_left hf)
    have hget : bindings.get? label.val = none := by
      rw [Disk.bound_of_load hl] at hfree
      exact Option.map_eq_none_iff.mp hfree
    obtain ⟨changed, hinsert⟩ :=
      (hd.regular hl).insert_free (b := ⟨label.val, .object reference⟩) hget
    have hput : d.put c.key changed = .error failure := by
      simpa only [Disk.bindLast, Disk.look, Disk.found, hl, Disk.accepts,
        Context.Placement.change, hinsert, Bind.bind, Except.bind, Except.map] using hfailed
    rw [Disk.put_eq_if] at hput
    split at hput
    · cases hput
    · cases hput
      exact .inr ⟨_, rfl⟩

end Takes

end Call

namespace Context

/-- What comes of calls that are made one after the other. -/
inductive Serves (c : Context) (faulty : Prop) :
    List (Call × Except Failure Reply) → Disk → Disk → Prop
  | nil (d : Disk) : Serves c faulty [] d d
  | cons {call : Call} {answer : Except Failure Reply}
      {rest : List (Call × Except Failure Reply)} {d e f : Disk} (sound : d.Sound)
      (first : call.Takes c faulty d answer e) (others : Serves c faulty rest e f) :
      Serves c faulty ((call, answer) :: rest) d f

namespace Serves

variable {c : Context} {faulty : Prop} {d e f : Disk} {label : Label}
  {entries before after : List (Call × Except Failure Reply)} {call : Call}
  {answer : Except Failure Reply}

theorem split (h : c.Serves faulty (before ++ (call, answer) :: after) d f) :
    ∃ e e', c.Serves faulty before d e ∧ e.Sound ∧ call.Takes c faulty e answer e' ∧
      c.Serves faulty after e' f := by
  induction before generalizing d with
  | nil =>
    cases h with
    | cons sound first others => exact ⟨d, _, .nil d, sound, first, others⟩
  | cons entry before ih =>
    cases h with
    | cons sound first others =>
      obtain ⟨e, e', hbefore, hsound, htakes, hafter⟩ := ih others
      exact ⟨e, e', .cons sound first hbefore, hsound, htakes, hafter⟩

/-- What holds of the target of a label goes on to hold if it holds of all that it is bound to. -/
theorem keeps {p : Option Target → Prop} (h : c.Serves faulty entries d f)
    (hlocal : ∀ entry ∈ entries, entry.1.Local)
    (hassigns : ∀ entry ∈ entries, entry.2.isOk = true → ∀ target,
      entry.1.assigns label = some target → p target)
    (hd : p (d.bound c.key label)) : p (f.bound c.key label) := by
  induction h with
  | nil => exact hd
  | cons sound first _ ih =>
    refine ih (fun entry he => hlocal entry (List.mem_cons_of_mem _ he))
      (fun entry he => hassigns entry (List.mem_cons_of_mem _ he)) ?_
    rcases first.bound_cases (hlocal _ List.mem_cons_self) sound label with hsame | ⟨hok, ha⟩
    · exact hsame ▸ hd
    · exact hassigns _ List.mem_cons_self hok _ ha

theorem missing (h : c.Serves faulty entries d f) (hlocal : ∀ entry ∈ entries, entry.1.Local)
    (hd : d.load c.key = .ok none) : ∀ entry ∈ entries, entry.2.isOk = false := by
  induction h with
  | nil => exact List.forall_mem_nil _
  | cons _ first _ ih =>
    obtain ⟨hfailed, rfl⟩ := first.missing (hlocal _ List.mem_cons_self) hd
    intro entry he
    rcases List.mem_cons.mp he with rfl | he
    · exact hfailed
    · exact ih (fun entry he => hlocal entry (List.mem_cons_of_mem _ he)) hd entry he

theorem stored (h : c.Serves faulty entries d f) (hlocal : ∀ entry ∈ entries, entry.1.Local)
    (hne : ∀ entry ∈ entries, entry.1 = .destroy → entry.2.isOk = false)
    (hd : ∃ bindings, d.load c.key = .ok (some bindings)) :
    ∃ bindings, f.load c.key = .ok (some bindings) := by
  induction h with
  | nil => exact hd
  | cons _ first _ ih =>
    exact ih (fun entry he => hlocal entry (List.mem_cons_of_mem _ he))
      (fun entry he => hne entry (List.mem_cons_of_mem _ he))
      (first.stored (hlocal _ List.mem_cons_self) (hne _ List.mem_cons_self) hd)

/-- A label that was bound and is not has been unbound. -/
theorem unbound (h : c.Serves faulty entries d f) (hlocal : ∀ entry ∈ entries, entry.1.Local)
    (hd : d.bound c.key label ≠ none) (hf : f.bound c.key label = none) :
    ∃ entry ∈ entries, entry.1 = .unbind (.single label) ∧ entry.2.isOk = true := by
  by_contra hnone
  refine h.keeps (p := (· ≠ none)) hlocal (fun entry he hok target ha => ?_) hd hf
  rintro rfl
  exact hnone ⟨entry, he, Call.eq_unbind ha, hok⟩

end Serves

variable {c : Context} {s t : Server}

theorem serves_takes {call : Call} {answer : Except Failure Reply} (hlocal : call.Local)
    (hs : s.Ready) (hsound : s.Sound) (h : (call.run c).serve s = some (answer, t)) :
    call.Takes c (¬ s.store.Willing) s.store.disk answer t.store.disk := by
  obtain ⟨_, hperforms⟩ := Call.performs c hlocal.creates
  cases hperforms.comes hs hsound h with
  | refused _ refusal same =>
    rw [same]
    exact .failed (.inl fun hw => hw.not_refused refusal)
  | failed failure_told same =>
    rw [same]
    exact .failed (.inr failure_told)
  | done result_told => exact .done result_told

theorem inTurn_serves {calls : List Call} {answers : List (Except Failure Reply)}
    (hlocal : ∀ call ∈ calls, call.Local) (hs : s.Ready) (hsound : s.Sound)
    (h : (c.inTurn calls).run s = some (answers, t)) :
    c.Serves (¬ s.store.Willing) (calls.zip answers) s.store.disk t.store.disk := by
  induction calls generalizing s answers with
  | nil =>
    cases h
    exact .nil _
  | cons call rest ih =>
    obtain ⟨answer, others, u, rfl, hfirst, hrest⟩ := inTurn_cons h
    have hready := (call.run_orderly c).ready hs hfirst
    have husound := (call.run_orderly c).sound hs hsound hfirst
    have hwilling : u.store.Willing = s.store.Willing := by
      unfold Store.Willing
      rw [Job.run_fails hfirst]
    have hothers := ih (fun call hc => hlocal call (List.mem_cons_of_mem _ hc)) hready husound hrest
    rw [hwilling] at hothers
    exact .cons hsound.disk (serves_takes (hlocal call List.mem_cons_self) hs hsound hfirst) hothers

end Context

/-- What a job answers, if it is done. -/
def Job.answer? {α : Type} : Job α → Option α
  | .done answer => some answer
  | .step .. => none

theorem Job.answer?_some {α : Type} {job : Job α} {answer : α} :
    job.answer? = some answer ↔ job = .done answer := by
  cases job <;> simp [answer?]

namespace Race

variable {n : Nat}

/-- What requests of one context leave of each other, told by the order of their turns. -/
structure Lossless (c : Context) (calls : Fin n → Call) (answers : Fin n → Except Failure Reply)
    (order : List (Fin n)) (before : Store) (after : Disk) : Prop where
  /-- What a request binds a label to is there at the end, or the label was bound anew later. -/
  kept : ∀ i label target, (answers i).isOk = true → (calls i).assigns label = some target →
    after.bound c.key label = target ∨ ∃ j, [i, j].Sublist order ∧ (answers j).isOk = true ∧
      ((calls j).assigns label).isSome = true
  /-- Two requests that need the same label to be free do not both succeed unless it is unbound
  between them. -/
  apart : ∀ i j label, i ≠ j → (answers i).isOk = true → (answers j).isOk = true →
    (calls i).claims label = true → (calls j).claims label = true →
    ∃ k, ([i, k, j].Sublist order ∨ [j, k, i].Sublist order) ∧
      calls k = .unbind (.single label) ∧ (answers k).isOk = true
  /-- A context in which a label was bound is not destroyed unless the label is unbound before. -/
  emptied : ∀ i j label target, (answers i).isOk = true → (answers j).isOk = true →
    (calls i).assigns label = some (some target) → calls j = .destroy →
    ∃ k, [i, k, j].Sublist order ∧ calls k = .unbind (.single label) ∧ (answers k).isOk = true
  /-- Of the requests that bind a free name of a context one succeeds, if they are all that concerns
  the name, the context stays and nothing goes wrong in the store. -/
  won : before.Willing → ∀ label, (∃ bindings, before.disk.load c.key = .ok (some bindings)) →
    before.disk.bound c.key label = none →
    (∃ i reference, calls i = .bind (.single label) reference) →
    (∀ i target, (calls i).assigns label = some target → (calls i).claims label = true) →
    (∀ i, calls i ≠ .destroy) → (∀ i cause, answers i ≠ .error (.storage cause)) →
    ∃! i, (calls i).claims label = true ∧ (answers i).isOk = true

section

variable {c : Context} {calls : Fin n → Call} {answers : Fin n → Except Failure Reply}
  {order pre post : List (Fin n)} {d f : Disk} {i j : Fin n} {label : Label} {faulty : Prop}

/-- One request of those that took turns, with what came before and after it. -/
theorem split_turns
    (h : c.Serves faulty ((pre ++ i :: post).map fun i => (calls i, answers i)) d f) :
    ∃ e e', c.Serves faulty (pre.map fun i => (calls i, answers i)) d e ∧ e.Sound ∧
      (calls i).Takes c faulty e (answers i) e' ∧
      c.Serves faulty (post.map fun i => (calls i, answers i)) e' f := by
  rw [List.map_append, List.map_cons] at h
  exact h.split

theorem local_turns (hlocal : ∀ i, (calls i).Local) (turns : List (Fin n)) :
    ∀ entry ∈ turns.map fun i => (calls i, answers i), entry.1.Local := by
  intro entry he
  obtain ⟨i, _, rfl⟩ := List.mem_map.mp he
  exact hlocal i

/-- What leaves a label bound and what needs it to be free have a request between them that unbinds
the label. -/
theorem unbound_between (hlocal : ∀ i, (calls i).Local)
    (h : c.Serves faulty ((pre ++ i :: post).map fun i => (calls i, answers i)) d f)
    (hj : j ∈ post)
    (hbinds : ∀ e e', e.Sound → (calls i).Takes c faulty e (answers i) e' →
      e'.bound c.key label ≠ none)
    (hneeds : ∀ e e', e.Sound → (calls j).Takes c faulty e (answers j) e' →
      e.bound c.key label = none) :
    ∃ k, [i, k, j].Sublist (pre ++ i :: post) ∧ calls k = .unbind (.single label) ∧
      (answers k).isOk = true := by
  obtain ⟨mid, rest, rfl⟩ := List.append_of_mem hj
  obtain ⟨e, e', _, hsound, htakes, hafter⟩ := split_turns h
  obtain ⟨u, u', hmid, husound, hutakes, _⟩ := split_turns hafter
  obtain ⟨entry, he, hunbind, hok⟩ := hmid.unbound (local_turns hlocal mid)
    (hbinds e e' hsound htakes) (hneeds u u' husound hutakes)
  obtain ⟨k, hk, rfl⟩ := List.mem_map.mp he
  refine ⟨k, ?_, hunbind, hok⟩
  have hsub : [k, j].Sublist (mid ++ j :: rest) :=
    (List.singleton_sublist.mpr hk).append (List.singleton_sublist.mpr List.mem_cons_self)
  exact (hsub.cons_cons i).trans (List.sublist_append_right pre _)

/-- Of two requests that took turns one came before the other. -/
theorem before_or_after (hi : i ∈ order) (hj : j ∈ order) (hne : i ≠ j) :
    (∃ pre post, order = pre ++ i :: post ∧ j ∈ post) ∨
      ∃ pre post, order = pre ++ j :: post ∧ i ∈ post := by
  obtain ⟨pre, post, rfl⟩ := List.append_of_mem hi
  rcases List.mem_append.mp hj with hpre | hrest
  · obtain ⟨first, rest, rfl⟩ := List.append_of_mem hpre
    exact .inr ⟨first, rest ++ i :: post, List.append_assoc .., by simp⟩
  · exact .inl ⟨pre, post, rfl, (List.mem_cons.mp hrest).resolve_left hne.symm⟩

theorem turns_kept (hlocal : ∀ i, (calls i).Local)
    (h : c.Serves faulty (order.map fun i => (calls i, answers i)) d f) (hi : i ∈ order)
    (hok : (answers i).isOk = true) {target : Option Target}
    (ha : (calls i).assigns label = some target) :
    f.bound c.key label = target ∨ ∃ j, [i, j].Sublist order ∧ (answers j).isOk = true ∧
      ((calls j).assigns label).isSome = true := by
  obtain ⟨pre, post, rfl⟩ := List.append_of_mem hi
  obtain ⟨e, e', _, hsound, htakes, hafter⟩ := split_turns h
  by_cases hlater : ∃ j ∈ post, (answers j).isOk = true ∧ ((calls j).assigns label).isSome = true
  · obtain ⟨j, hj, hanew⟩ := hlater
    have hsub := (List.singleton_sublist.mpr hj).cons_cons i
    exact .inr ⟨j, hsub.trans (List.sublist_append_right pre _), hanew⟩
  · refine .inl (hafter.keeps (p := (· = target)) (local_turns hlocal post)
      (fun entry he hentry anew ha => ?_) (htakes.assigned (hlocal i) hsound hok ha))
    obtain ⟨j, hj, rfl⟩ := List.mem_map.mp he
    exact absurd ⟨j, hj, hentry, by rw [ha]; rfl⟩ hlater

theorem turns_apart (hlocal : ∀ i, (calls i).Local)
    (h : c.Serves faulty (order.map fun i => (calls i, answers i)) d f) (hi : i ∈ order)
    (hj : j ∈ order) (hne : i ≠ j) (hoki : (answers i).isOk = true)
    (hokj : (answers j).isOk = true) (hci : (calls i).claims label = true)
    (hcj : (calls j).claims label = true) :
    ∃ k, ([i, k, j].Sublist order ∨ [j, k, i].Sublist order) ∧
      calls k = .unbind (.single label) ∧ (answers k).isOk = true := by
  have hordered : ∀ {i j : Fin n}, (answers i).isOk = true → (answers j).isOk = true →
      (calls i).claims label = true → (calls j).claims label = true →
      (∃ pre post, order = pre ++ i :: post ∧ j ∈ post) → ∃ k, [i, k, j].Sublist order ∧
        calls k = .unbind (.single label) ∧ (answers k).isOk = true := by
    rintro i j hoki hokj hci hcj ⟨pre, post, rfl, hpost⟩
    obtain ⟨target, ha⟩ := Call.assigns_of_claims hci
    exact unbound_between hlocal h hpost
      (fun _ _ hsound htakes => htakes.binds (hlocal i) hsound hoki ha)
      fun _ _ hsound htakes => htakes.claimed (hlocal j) hsound hokj hcj
  rcases before_or_after hi hj hne with hbefore | hafter
  · obtain ⟨k, hsub, hunbind⟩ := hordered hoki hokj hci hcj hbefore
    exact ⟨k, .inl hsub, hunbind⟩
  · obtain ⟨k, hsub, hunbind⟩ := hordered hokj hoki hcj hci hafter
    exact ⟨k, .inr hsub, hunbind⟩

theorem turns_emptied (hlocal : ∀ i, (calls i).Local)
    (h : c.Serves faulty (order.map fun i => (calls i, answers i)) d f) (hi : i ∈ order)
    (hj : j ∈ order) (hoki : (answers i).isOk = true) (hokj : (answers j).isOk = true)
    {target : Target} (ha : (calls i).assigns label = some (some target))
    (hdestroy : calls j = .destroy) :
    ∃ k, [i, k, j].Sublist order ∧ calls k = .unbind (.single label) ∧
      (answers k).isOk = true := by
  have hne : i ≠ j := by
    rintro rfl
    rw [hdestroy] at ha
    cases ha
  have hdestroyed : ∀ e e', (calls j).Takes c faulty e (answers j) e' →
      (∀ label, e.bound c.key label = none) ∧ e'.load c.key = .ok none := by
    intro e e' htakes
    rw [hdestroy] at htakes
    exact htakes.destroyed hokj
  rcases before_or_after hi hj hne with ⟨pre, post, rfl, hpost⟩ | ⟨pre, post, rfl, hpost⟩
  · exact unbound_between hlocal h hpost
      (fun _ _ hsound htakes => htakes.binds (hlocal i) hsound hoki ha)
      fun e e' _ htakes => (hdestroyed e e' htakes).1 label
  · obtain ⟨e, e', _, _, htakes, hafter⟩ := split_turns h
    have hfailed := hafter.missing (local_turns hlocal post) (hdestroyed e e' htakes).2 _
      (List.mem_map_of_mem hpost)
    rw [hoki] at hfailed
    cases hfailed

theorem turns_won (hlocal : ∀ i, (calls i).Local) (hall : ∀ i, i ∈ order)
    (h : c.Serves faulty (order.map fun i => (calls i, answers i)) d f) (hf : ¬ faulty)
    (hd : ∃ bindings, d.load c.key = .ok (some bindings)) (hfree : d.bound c.key label = none)
    (hsome : ∃ i reference, calls i = .bind (.single label) reference)
    (hclaims : ∀ i target, (calls i).assigns label = some target →
      (calls i).claims label = true)
    (hstays : ∀ i, calls i ≠ .destroy) (hstored : ∀ i cause, answers i ≠ .error (.storage cause)) :
    ∃! i, (calls i).claims label = true ∧ (answers i).isOk = true := by
  have hexists : ∃ i, (calls i).claims label = true ∧ (answers i).isOk = true := by
    by_contra hnone
    obtain ⟨i, reference, hi⟩ := hsome
    have hclaimed : (calls i).claims label = true := by
      rw [hi]
      exact decide_eq_true rfl
    obtain ⟨pre, post, rfl⟩ := List.append_of_mem (hall i)
    obtain ⟨e, e', hbefore, hsound, htakes, _⟩ := split_turns h
    -- as long as nothing succeeds for the label it stays free
    have hstill : e.bound c.key label = none := by
      refine hbefore.keeps (p := (· = none)) (local_turns hlocal pre)
        (fun entry he hok target ha => ?_) hfree
      obtain ⟨j, _, rfl⟩ := List.mem_map.mp he
      exact absurd ⟨j, hclaims j target ha, hok⟩ hnone
    obtain ⟨bindings, hload⟩ := hbefore.stored (local_turns hlocal pre) (fun entry he hdestroy => by
      obtain ⟨j, _, rfl⟩ := List.mem_map.mp he
      exact absurd hdestroy (hstays j)) hd
    rw [hi] at htakes
    rcases htakes.bind_free hf hsound hload hstill with hok | ⟨cause, hcause⟩
    · exact hnone ⟨i, hclaimed, hok⟩
    · exact hstored i cause hcause
  obtain ⟨i, hci, hoki⟩ := hexists
  refine ⟨i, ⟨hci, hoki⟩, fun j ⟨hcj, hokj⟩ => ?_⟩
  by_contra hne
  obtain ⟨k, _, hunbind, _⟩ := turns_apart hlocal h (hall j) (hall i) hne hokj hoki hcj hci
  have hk := hclaims k none (by rw [hunbind]; exact if_pos rfl)
  rw [hunbind] at hk
  cases hk

theorem lossless {before : Store} (hlocal : ∀ i, (calls i).Local) (hall : ∀ i, i ∈ order)
    (h : c.Serves (¬ before.Willing) (order.map fun i => (calls i, answers i)) before.disk f) :
    Lossless c calls answers order before f where
  kept i _ _ hok := turns_kept hlocal h (hall i) hok
  apart i j _ := turns_apart hlocal h (hall i) (hall j)
  emptied i j _ _ hoki hokj := turns_emptied hlocal h (hall i) (hall j) hoki hokj
  won hwilling _ := turns_won hlocal hall h (not_not_intro hwilling)

/-- Local calls of one context come to what they come to one after the other, in the order in which
they were granted its lock. So no update is lost. -/
theorem serialised {s : Server} {schedule : List (Fin n)}
    {race : Race n (Except Failure Reply)} (hlocal : ∀ i, (calls i).Local) (hc : c.key ≠ c.root)
    (hs : s.AtRest) (hsound : s.Sound) (hl : s.store.Spares .load)
    (hp : (Race.start c calls s).play schedule = some race)
    (hdone : ∀ i, race.jobs i = .done (answers i)) :
    race.granted.Perm (List.finRange n) ∧
      (∃ t, (c.inTurn (race.granted.map calls)).run s = some (race.granted.map answers, t) ∧
        t.store.disk = race.server.store.disk) ∧
      Lossless c calls answers race.granted s.store race.server.store.disk := by
  obtain ⟨hperm, t, hturns, hdisk⟩ :=
    Race.serial (fun i => (hlocal i).visits hc) hs hsound hl hp hdone
  have hcalls : ∀ call ∈ race.granted.map calls, call.Local := by
    intro call hcall
    obtain ⟨i, _, rfl⟩ := List.mem_map.mp hcall
    exact hlocal i
  have hserves := Context.inTurn_serves hcalls hs.ready hsound hturns
  rw [List.zip_map', hdisk] at hserves
  exact ⟨hperm, ⟨t, hturns, hdisk⟩,
    lossless hlocal (fun i => hperm.mem_iff.mpr (List.mem_finRange i)) hserves⟩

end

/-- Two clients bind one free name at the same time. -/
theorem serialised_bind : ∃ (service : Service) (s : Server) (history : History)
    (race : Race 2 (Except Failure Reply)) (answers : Fin 2 → Except Failure Reply),
    Service.firstRun [.newContext] = some (service, s, history) ∧
      (Race.start ⟨⟨"NC0"⟩, ⟨"NC1"⟩⟩ (fun i => .bind (.single ⟨.ofId "a", rfl⟩) s!"{i}") s).play
        [1, 0, 1, 0, 1, 1, 1, 1, 1, 1, 1, 1, 1, 0, 1, 0, 0, 0, 0, 0, 0, 0, 0] = some race ∧
      (∀ i, race.jobs i = .done (answers i)) ∧ race.granted.Perm (List.finRange 2) ∧
      (∃ t, (Context.inTurn ⟨⟨"NC0"⟩, ⟨"NC1"⟩⟩ (race.granted.map fun i =>
          .bind (.single ⟨.ofId "a", rfl⟩) s!"{i}")).run s =
          some (race.granted.map answers, t) ∧ t.store.disk = race.server.store.disk) ∧
      Lossless ⟨⟨"NC0"⟩, ⟨"NC1"⟩⟩ (fun i => .bind (.single ⟨.ofId "a", rfl⟩) s!"{i}") answers
        race.granted s.store race.server.store.disk := by
  have hrun : (Service.firstRun [.newContext]).any (fun p =>
      ((Race.start ⟨⟨"NC0"⟩, ⟨"NC1"⟩⟩ (fun i => .bind (.single ⟨.ofId "a", rfl⟩) s!"{i}")
        p.2.1).play [1, 0, 1, 0, 1, 1, 1, 1, 1, 1, 1, 1, 1, 0, 1, 0, 0, 0, 0, 0, 0, 0, 0]).any
        fun race => decide (∀ i : Fin 2, (race.jobs i).answer?.isSome = true)) = true := by
    decide +kernel
  obtain ⟨⟨service, s, history⟩, hrun, hraced⟩ := (Option.any_eq_true _ _).mp hrun
  obtain ⟨race, hplay, hdone⟩ := (Option.any_eq_true _ _).mp hraced
  choose answers hanswers using fun i => Option.isSome_iff_exists.mp (of_decide_eq_true hdone i)
  have hsettled := (Reached.firstRun hrun).settled
  have hjobs := fun i => Job.answer?_some.mp (hanswers i)
  have hwilling : s.store.Willing := hsettled.faults
  exact ⟨service, s, history, race, answers, hrun, hplay, hjobs,
    serialised (fun i => .bind ⟨.ofId "a", rfl⟩ s!"{i}") (by decide) hsettled.rest hsettled.sound
      (hwilling.spares .load) hplay hjobs⟩

end Race

end Naming
