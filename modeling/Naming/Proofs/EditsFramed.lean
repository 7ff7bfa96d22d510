import Naming.Proofs.Delegations

namespace Naming

namespace BindingSet

/-- How the entries of a context change when one name in it is bound to a target or to nothing: a
new binding goes last, one that is bound anew keeps its position and its type, and all others stay
what and where they are. -/
inductive Revised (name : Component) : Option Target → List Binding → List Binding → Prop
  | added {target : Target} {entries : List Binding} (free : ∀ b ∈ entries, b.name ≠ name) :
      Revised name (some target) entries (entries ++ [⟨name, target⟩])
  | replaced {target : Target} {old : Binding} {before after : List Binding}
      (same : old.name = name) (others : ∀ b ∈ before ++ after, b.name ≠ name)
      (type : old.type = target.type) :
      Revised name (some target) (before ++ old :: after) (before ++ ⟨name, target⟩ :: after)
  | removed {old : Binding} {before after : List Binding} (same : old.name = name)
      (others : ∀ b ∈ before ++ after, b.name ≠ name) :
      Revised name none (before ++ old :: after) (before ++ after)

variable {s t : BindingSet} {b : Binding} {name : Component}

theorem Regular.revised_append (h : s.Regular) (hp : s.position? b.name = none) :
    Revised b.name (some b.target) s.entries (s.append b).entries :=
  .added fun _ => h.unnamed hp

theorem Regular.revised_insert (h : s.Regular) (ht : s.insert b = .ok t) :
    Revised b.name (some b.target) s.entries t.entries := by
  obtain ⟨hp, rfl⟩ := insert_ok ht
  exact h.revised_append hp

theorem Regular.revised_replace {old : Option Binding} (h : s.Regular)
    (ht : s.replace b = .ok (old, t)) :
    Revised b.name (some b.target) s.entries t.entries := by
  rcases h.truthful.replaced ht with ⟨hp, rfl⟩ | ⟨_, _, _, hold, hsame, htype, rfl⟩
  · exact h.revised_append hp
  · obtain ⟨before, after, _, he, hplace, _⟩ := split_entry hold
    rw [hplace, he]
    exact .replaced hsame (fun _ => h.split_named he hsame) htype

theorem Regular.revised_remove (h : s.Regular) (hb : (s.get? name).isSome = true) :
    Revised name none s.entries (s.remove name).2.entries := by
  rcases h.truthful.removed name with ⟨hp, _⟩ | ⟨_, _, _, hold, hsame, hremove⟩
  · rw [get?_free hp] at hb
    cases hb
  · obtain ⟨before, after, _, he, _, hdrop⟩ := split_entry hold
    rw [hremove, hdrop, he]
    exact .removed hsame fun _ => h.split_named he hsame

end BindingSet

namespace Disk

/-- A walk along labels from a context comes to look a label up in a context. -/
inductive LooksUp (d : Disk) (mid : ContextKey) (label : Label) : ContextKey → List Label → Prop
  | here (labels : List Label) : LooksUp d mid label mid (label :: labels)
  | later {key next : ContextKey} {first : Label} {labels : List Label}
      (link : d.bound key first = some (.context next))
      (others : LooksUp d mid label next labels) : LooksUp d mid label key (first :: labels)

/-- Two disks tell the same about a label in a context. -/
structure Alike (d e : Disk) (key : ContextKey) (label : Label) : Prop where
  stored : e.contains key = d.contains key
  bound : e.bound key label = d.bound key label

variable {d e : Disk} {key mid parent next : ContextKey} {label last : Label}
  {labels init : List Label} {name : Name} {target : Option Target}

theorem alike_of_record (h : e.contexts.get? (place key) = d.contexts.get? (place key))
    (label : Label) : d.Alike e key label := by
  constructor
  · rw [contains_eq, contains_eq, h]
  · rw [Disk.bound, Disk.bound, load_congr h]

namespace LooksUp

/-- What leads on from a context was looked up there. -/
theorem of_leads (h : d.Leads key labels mid) (label : Label) (rest : List Label) :
    d.LooksUp mid label key (labels ++ label :: rest) := by
  induction h with
  | here key => exact .here rest
  | through link others ih => exact .later link ih

/-- What is looked up is looked up where a walk starts or where some record leads. -/
theorem start_or_link (h : d.LooksUp mid label key labels) :
    mid = key ∨ ∃ other, mid ∈ d.links other := by
  induction h with
  | here labels => exact .inl rfl
  | later link others ih =>
    rename_i key next first labels
    rcases ih with rfl | hlink
    · have hlook : d.look key (Context.childIn ⟨first, []⟩) = .ok mid :=
        look_child_ok_iff.mpr link
      exact .inr ⟨key, child_mem_links hlook⟩
    · exact .inr hlink

/-- All that is looked up on the way to a context leads on. -/
theorem leads_on (h : d.LooksUp mid label key labels) (hleads : d.Leads key labels parent) :
    ∃ next, d.bound mid label = some (.context next) := by
  induction h with
  | here labels =>
    cases hleads with
    | through link others => exact ⟨_, link⟩
  | later link others ih =>
    cases hleads with
    | through link' others' =>
      cases link.symm.trans link'
      exact ih others'

/-- A walk looks a label up in a context for a first time. -/
theorem first (h : d.LooksUp mid label key labels) : ∃ before after,
    labels = before ++ label :: after ∧ d.Leads key before mid ∧
      ¬ d.LooksUp mid label key before := by
  induction h with
  | here labels => exact ⟨[], labels, rfl, .here mid, nofun⟩
  | later link others ih =>
    rename_i key next first labels
    by_cases hfirst : mid = key ∧ label = first
    · obtain ⟨rfl, rfl⟩ := hfirst
      exact ⟨[], labels, rfl, .here mid, nofun⟩
    · obtain ⟨before, after, rfl, hleads, hnot⟩ := ih
      refine ⟨first :: before, after, rfl, .through link hleads, ?_⟩
      intro hlooks
      cases hlooks with
      | here => exact hfirst ⟨rfl, rfl⟩
      | later link' others' =>
        cases link.symm.trans link'
        exact hnot others'

end LooksUp

/-- Labels lead where they led on a disk that tells the same about all that is looked up. -/
theorem Leads.transfer (h : d.Leads key labels parent)
    (halike : ∀ mid label, d.LooksUp mid label key labels → d.Alike e mid label) :
    e.Leads key labels parent := by
  induction h with
  | here key => exact .here key
  | through link others ih =>
    rename_i key next parent label labels
    have hbound := (halike key label (.here labels)).bound
    apply Leads.through (hbound.trans link)
    exact ih fun mid other hlooks => halike mid other (.later link hlooks)

/-- What a look for a child finds is told by what the label is bound to. -/
theorem look_child_congr {left : Name} (hd : d.Sound) (he : e.Sound)
    (h : d.Alike e key left.first) :
    e.look key (Context.childIn left) = d.look key (Context.childIn left) := by
  rcases d.link_or_stops key left with ⟨next, hlink⟩ | ⟨failure, hstops⟩
  · rw [look_child_ok_iff.mpr hlink, look_child_ok_iff.mpr (h.bound.trans hlink)]
  · rw [hstops.look_child hd]
    apply Stops.look_child _ he
    cases hstops with
    | missing gone => exact .missing (h.stored.trans gone)
    | unbound stored free => exact .unbound (h.stored.trans stored) (h.bound.trans free)
    | object taken => exact .object (h.bound.trans taken)

/-- A label that is bound to nothing in a context with a record is not found there. -/
theorem look_target_unbound (hd : d.Sound) (hstored : d.contains key = true)
    (hfree : d.bound key label = none) :
    d.look key (Context.targetIn label) = .error (.notFound (.single label)) := by
  obtain ⟨bindings, hload⟩ := hd.load_contained hstored
  rw [bound_of_load hload, Option.map_eq_none_iff] at hfree
  rw [look_stored hload, Context.targetIn, hfree]

theorem look_target_congr (hd : d.Sound) (he : e.Sound) (h : d.Alike e key label) :
    e.look key (Context.targetIn label) = d.look key (Context.targetIn label) := by
  cases hbound : d.bound key label with
  | some target =>
    rw [look_target_ok_iff.mpr hbound, look_target_ok_iff.mpr (h.bound.trans hbound)]
  | none =>
    cases hstored : d.contains key with
    | true =>
      rw [look_target_unbound hd hstored hbound,
        look_target_unbound he (h.stored.trans hstored) (h.bound.trans hbound)]
    | false =>
      rw [look_unknown hstored, look_unknown (h.stored.trans hstored)]

/-- A name means what it meant on a disk that tells the same about all that is looked up. -/
theorem resolve_frame (hd : d.Sound) (he : e.Sound)
    (halike : ∀ mid label, d.LooksUp mid label key name.labels → d.Alike e mid label) :
    e.resolve key name = d.resolve key name := by
  obtain ⟨first, rest⟩ := name
  have hwalk : ∀ parent last, d.walkFrom key first rest = .ok (parent, last) →
      d.Alike e parent last := by
    intro parent last h
    obtain ⟨init, hlabels, hleads⟩ := walkFrom_ok_iff.mp h
    apply halike
    rw [Name.labels, hlabels]
    exact .of_leads hleads last []
  have hsame : e.walkFrom key first rest = d.walkFrom key first rest := by
    clear hwalk
    induction rest generalizing key first with
    | nil => rfl
    | cons second rest ih =>
      have hlook : e.look key (Context.childIn ⟨first, second :: rest⟩) =
          d.look key (Context.childIn ⟨first, second :: rest⟩) :=
        look_child_congr hd he (halike key first (.here _))
      simp only [walkFrom, hlook]
      cases hnext : d.look key (Context.childIn ⟨first, second :: rest⟩) with
      | error failure => rfl
      | ok next =>
        apply ih
        intro mid label hlooks
        exact halike mid label (.later (look_child_ok_iff.mp hnext) hlooks)
  simp only [resolve, hsame]
  cases hparent : d.walkFrom key first rest with
  | error failure => rfl
  | ok p => exact look_target_congr hd he (hwalk p.1 p.2 hparent)

/-- A walk does not go on from a label that is bound to nothing. -/
theorem walkFrom_unbound {bindings : BindingSet} {left : Name}
    (hload : d.load key = .ok (some bindings)) (hfree : bindings.get? left.first.val = none)
    (hrest : left.rest ≠ []) :
    d.walkFrom key left.first left.rest = .error (.notFound left) := by
  obtain ⟨first, rest⟩ := left
  cases rest with
  | nil => exact absurd rfl hrest
  | cons second rest =>
    have hlook : d.look key (Context.childIn ⟨first, second :: rest⟩) =
        .error (.notFound ⟨first, second :: rest⟩) := by
      rw [look_stored hload, Context.childIn, hfree]
    simp only [walkFrom, hlook, Bind.bind, Except.bind]

/-- Where a label is bound to nothing, a name that leads there is not found from this label on. -/
theorem resolve_unbound {bindings : BindingSet} {left : Name} (hleads : d.Leads key init parent)
    (hname : name.labels = init ++ left.labels) (hload : d.load parent = .ok (some bindings))
    (hfree : bindings.get? left.first.val = none) :
    d.resolve key name = .error (.notFound left) := by
  have hwalk := hleads.walkFrom hname
  cases hrest : left.rest with
  | nil =>
    have hleft : left = .single left.first := congrArg (Name.mk left.first) hrest
    rw [hrest] at hwalk
    simp only [resolve, hwalk, Disk.walkFrom, Bind.bind, Except.bind]
    rw [look_stored hload, Context.targetIn, hfree, ← hleft]
  | cons second after =>
    have hmore : left.rest ≠ [] := hrest ▸ List.cons_ne_nil _ _
    simp only [resolve, hwalk, walkFrom_unbound hload hfree hmore, Bind.bind, Except.bind]

/-- One disk differs from another only in what a label is bound to in a context. -/
structure Revises (d e : Disk) (parent : ContextKey) (last : Label) (target : Option Target) :
    Prop where
  others : ∀ other, other ≠ parent →
    e.contexts.get? (place other) = d.contexts.get? (place other)
  bindings : ∃ stored changed, d.load parent = .ok (some stored) ∧
    e.load parent = .ok (some changed) ∧
    BindingSet.Revised last.val target stored.entries changed.entries
  bound : ∀ label, e.bound parent label = if last = label then target else d.bound parent label

theorem put_others {bindings : BindingSet} (h : d.put parent bindings = .ok e)
    {other : ContextKey} (hne : other ≠ parent) :
    e.contexts.get? (place other) = d.contexts.get? (place other) :=
  (get?_save (put_ok h) _).trans (if_neg fun hp => hne (place_injective hp))

theorem bindLast_revises {target : Target} {placement : Context.Placement} (hd : d.Regular)
    (h : d.bindLast parent last target placement = .ok e) :
    d.Revises e parent last (some target) := by
  obtain ⟨stored, changed, hload, _, hchange, hput⟩ := bindLast_ok h
  have hregular := hd.regular hload
  have hchanged := load_put hput (placement.change_regular _ hregular hchange)
  refine ⟨fun other => put_others hput, ⟨stored, changed, hload, hchanged, ?_⟩,
    (bound_bindLast hd h).2⟩
  rcases Context.Placement.change_cases hchange with ⟨_, hinsert⟩ | ⟨_, _, hreplace⟩
  · exact hregular.revised_insert hinsert
  · exact hregular.revised_replace hreplace

theorem unbindLast_revises (hd : d.Regular) (h : d.unbindLast parent last = .ok e) :
    d.Revises e parent last none := by
  obtain ⟨stored, hload, hbound, hput⟩ := unbindLast_ok h
  have hregular := hd.regular hload
  have hchanged := load_put hput (hregular.remove last.val)
  exact ⟨fun other => put_others hput,
    ⟨stored, _, hload, hchanged, hregular.revised_remove hbound⟩, bound_unbindLast hd h⟩

namespace Revises

theorem stored (h : d.Revises e parent last target) :
    d.contains parent = true ∧ e.contains parent = true := by
  obtain ⟨stored, changed, hload, hchanged, _⟩ := h.bindings
  exact ⟨contains_of_load hload, contains_of_load hchanged⟩

/-- About all but this label the two disks tell the same. -/
theorem alike (h : d.Revises e parent last target) (hne : ¬ (mid = parent ∧ label = last)) :
    d.Alike e mid label := by
  by_cases hmid : mid = parent
  · subst hmid
    have hlabel : last ≠ label := fun he => hne ⟨rfl, he.symm⟩
    constructor
    · rw [h.stored.1, h.stored.2]
    · rw [h.bound, if_neg hlabel]
  · exact alike_of_record (h.others mid hmid) label

/-- A binding to an object replaces no context. -/
theorem not_context {reference : String} (h : d.Revises e parent last (some (.object reference)))
    (hd : d.Sound) : d.bound parent last ≠ some (.context next) := by
  intro hlink
  obtain ⟨stored, changed, hload, _, hrevised⟩ := h.bindings
  rw [bound_of_load hload] at hlink
  obtain ⟨b, hget, htarget⟩ := Option.map_eq_some_iff.mp hlink
  obtain ⟨hb, hname⟩ := (hd.regular hload).get?_iff.mp hget
  generalize stored.entries = entries, changed.entries = others at hrevised hb
  cases hrevised with
  | added free => exact free b hb hname
  | replaced same others type =>
    rename_i old before after
    have hold : b = old := by
      by_contra hne
      apply others b _ hname
      simp only [List.mem_append, List.mem_cons] at hb ⊢
      rcases hb with hbefore | hold | hafter
      · exact .inl hbefore
      · exact absurd hold hne
      · exact .inr hafter
    rw [← hold, Binding.type, htarget] at type
    cases type

end Revises

/-- A walk that does not look the label up finds all as it was. -/
theorem Revises.alike_off (h : d.Revises e parent last target)
    (hnot : ¬ d.LooksUp parent last key labels) (mid : ContextKey) (label : Label)
    (hlooks : d.LooksUp mid label key labels) : d.Alike e mid label := by
  apply h.alike
  rintro ⟨rfl, rfl⟩
  exact hnot hlooks

/-- A name is bound to the target if its other labels still lead to the context. -/
theorem Revises.resolve {target : Target} {base : Disk}
    (h : base.Revises e parent last (some target)) (hname : name.labels = init ++ [last])
    (hleads : d.Leads key init parent)
    (halike : ∀ mid label, d.LooksUp mid label key init → d.Alike e mid label) :
    e.resolve key name = .ok target := by
  apply resolve_ok_iff.mpr
  refine ⟨init, last, parent, hname, hleads.transfer halike, ?_⟩
  rw [h.bound, if_pos rfl]

/-- A label that was unbound is not in the record of the context, which is still there. -/
theorem Revises.unbound (h : d.Revises e parent last none) : ∃ changed,
    e.load parent = .ok (some changed) ∧ changed.get? last.val = none := by
  obtain ⟨_, changed, _, hchanged, _⟩ := h.bindings
  have hnone := h.bound last
  rw [if_pos rfl, bound_of_load hchanged, Option.map_eq_none_iff] at hnone
  exact ⟨changed, hchanged, hnone⟩

/-- A name whose last label was unbound is not found, from where the label is first looked up. -/
theorem Revises.not_found (h : d.Revises e parent last none)
    (hname : name.labels = init ++ [last]) (hleads : d.Leads key init parent) :
    ∃ before after, name.labels = before ++ last :: after ∧ d.Leads key before parent ∧
      e.resolve key name = .error (.notFound ⟨last, after⟩) := by
  have hlooks : d.LooksUp parent last key name.labels := hname ▸ .of_leads hleads last []
  obtain ⟨before, after, hlabels, hbefore, hnot⟩ := hlooks.first
  obtain ⟨changed, hchanged, hfree⟩ := h.unbound
  have hleft : name.labels = before ++ (⟨last, after⟩ : Name).labels := hlabels
  have hstill := hbefore.transfer (h.alike_off hnot)
  exact ⟨before, after, hlabels, hbefore, resolve_unbound hstill hleft hchanged hfree⟩

theorem bind_revises {target : Target} {placement : Context.Placement} (hd : d.Regular)
    (h : d.bind key name target placement = .ok e) : ∃ init last parent,
      name.labels = init ++ [last] ∧ d.Leads key init parent ∧
      d.Revises e parent last (some target) ∧
      (placement = .fresh → d.bound parent last = none) := by
  obtain ⟨⟨parent, last⟩, hwalk, hbound⟩ := bind_ok h
  obtain ⟨init, hlabels, hleads⟩ := walkFrom_ok_iff.mp hwalk
  exact ⟨init, last, parent, hlabels, hleads, bindLast_revises hd hbound,
    (bound_bindLast hd hbound).1⟩

theorem unbind_revises (hd : d.Regular) (h : d.unbind key name = .ok e) : ∃ init last parent,
    name.labels = init ++ [last] ∧ d.Leads key init parent ∧ d.Revises e parent last none := by
  obtain ⟨⟨parent, last⟩, hwalk, hbound⟩ := bind_ok h
  obtain ⟨init, hlabels, hleads⟩ := walkFrom_ok_iff.mp hwalk
  exact ⟨init, last, parent, hlabels, hleads, unbindLast_revises hd hbound⟩

theorem create_others {created : ContextKey} (h : d.create = .ok (created, e))
    {other : ContextKey} (hne : other ≠ created) :
    e.contexts.get? (place other) = d.contexts.get? (place other) := by
  obtain ⟨f, hallocate, hput⟩ := create_ok h
  obtain ⟨_, _, _, _, hcontexts⟩ := allocate_ok hallocate
  rw [put_others hput hne, hcontexts]

theorem Sound.created {created : ContextKey} (hd : d.Sound) (h : d.create = .ok (created, e)) :
    e.Sound := by
  obtain ⟨f, hallocate, hput⟩ := create_ok h
  obtain ⟨_, _, _, _, hcontexts⟩ := allocate_ok hallocate
  exact (hd.congr hcontexts).save BindingSet.regular_empty (put_ok hput)

theorem bindNew_revises {created : ContextKey} (hd : d.Sound)
    (h : d.bindNew key name = .ok (created, e)) : ∃ init last parent base,
      name.labels = init ++ [last] ∧ d.Leads key init parent ∧
      d.create = .ok (created, base) ∧ base.Revises e parent last (some (.context created)) ∧
      base.bound parent last = none := by
  obtain ⟨⟨parent, last⟩, hwalk, h⟩ := bind_ok h
  obtain ⟨init, hlabels, hleads⟩ := walkFrom_ok_iff.mp hwalk
  obtain ⟨⟨_, base⟩, hmade, h⟩ := bind_ok h
  obtain ⟨_, hbound, he⟩ := bind_ok h
  cases he
  have hbase := (hd.created hmade).allRegular
  exact ⟨init, last, parent, base, hlabels, hleads, hmade, bindLast_revises hbase hbound,
    (bound_bindLast hbase hbound).1 rfl⟩

/-- No walk from a context with a record comes to a context that is only being made. -/
theorem Keyed.not_created {n : Nat} {created : ContextKey} (h : d.Keyed n)
    (hc : d.create = .ok (created, e)) (hkey : d.contains key = true)
    (hlooks : d.LooksUp mid label key labels) : mid ≠ created := by
  rintro rfl
  obtain ⟨rfl, _⟩ := h.created hc
  obtain ⟨habsent, hunlinked⟩ := h.unused (Nat.le_refl n)
  rcases hlooks.start_or_link with rfl | ⟨other, hlink⟩
  · rw [habsent] at hkey
    cases hkey
  · exact hunlinked other hlink

theorem Alike.trans {f : Disk} (h : d.Alike e mid label) (h' : e.Alike f mid label) :
    d.Alike f mid label :=
  ⟨h'.stored.trans h.stored, h'.bound.trans h.bound⟩

/-- A walk from a context with a record that does not look the label up finds all as it was before
a context was made to be bound to the label. -/
theorem Revises.alike_made {n : Nat} {base : Disk} {created : ContextKey}
    (h : base.Revises e parent last target) (hkeyed : d.Keyed n)
    (hmade : d.create = .ok (created, base)) (hkey : d.contains key = true)
    (hnot : ¬ d.LooksUp parent last key labels) (mid : ContextKey) (label : Label)
    (hlooks : d.LooksUp mid label key labels) : d.Alike e mid label := by
  have hmid := hkeyed.not_created hmade hkey hlooks
  apply (alike_of_record (create_others hmade hmid) label).trans
  apply h.alike
  rintro ⟨rfl, rfl⟩
  exact hnot hlooks

/-- On the way to a context in which a label is free the label is not looked up there. -/
theorem Leads.not_looksUp (h : d.Leads key labels parent)
    (hfree : ∀ next, d.bound parent last ≠ some (.context next)) :
    ¬ d.LooksUp parent last key labels := by
  intro hlooks
  obtain ⟨next, hlink⟩ := hlooks.leads_on h
  exact hfree next hlink

end Disk

/-- A request comes to a result, unless a load is refused meanwhile. -/
def Request.Gives {α : Type} (r : Request α) (s : Server) (result : Except Failure α) : Prop :=
  ∃ outcome t, r.serve s = some (outcome, t) ∧
    (outcome = result ∨ s.store.Refused t.store .load)

/-- What a request views is what it gives. -/
theorem Request.Views.gives {α : Type} {r : Request α} {view : Disk → Except Failure α}
    {s : Server} (h : r.Views [.load] view) (hs : s.Ready) (hsound : s.Sound) :
    r.Gives s (view s.store.disk) := by
  obtain ⟨outcome, t, hserve, _⟩ := h.orderly.serves hs.idle fun _ => hs.opened
  refine ⟨outcome, t, hserve, ?_⟩
  have hcomes := h.comes hs hsound hserve
  cases hcomes with
  | refused made refusal _ =>
    rw [List.mem_singleton] at made
    exact .inr (made ▸ refusal)
  | failed failure_told _ => exact .inl (map_error failure_told).symm
  | done result_told =>
    obtain ⟨a, hview, he⟩ := Store.map_ok result_told
    obtain ⟨rfl, _⟩ := Prod.mk.inj he
    exact .inl hview.symm

namespace Verb

/-- What the last label of a name is bound to when all goes well. -/
def target (verb : Verb) (reply : Reply) : Option Target :=
  match verb, reply with
  | bind reference, _ => some (.object reference)
  | rebind reference, _ => some (.object reference)
  | bindContext key, _ => some (.context key)
  | rebindContext key, _ => some (.context key)
  | bindNewContext, .context created => some (.context created)
  | _, _ => none

/-- What is found by a name after it was bound or unbound, told by the labels before the last and by
the context that these led to before, and by the reply. -/
def Found (service : Service) (s t : Server) (key : ContextKey) (name : Name) (init : List Label)
    (last : Label) (parent : ContextKey) (reply : Reply) : Verb → Prop
  | resolve => True
  | bind reference => ((service.context key).resolve name).Gives t (.ok (.object reference))
  | rebind reference => ((service.context key).resolve name).Gives t (.ok (.object reference))
  | bindContext other => ((service.context key).resolve name).Gives t (.ok (.context other))
  | rebindContext other => ¬ s.store.disk.LooksUp parent last key init →
    ((service.context key).resolve name).Gives t (.ok (.context other))
  | unbind => ∃ before after, name.labels = before ++ last :: after ∧
    s.store.disk.Leads key before parent ∧
    ((service.context key).resolve name).Gives t (.error (.notFound ⟨last, after⟩))
  | bindNewContext => s.store.disk.contains key = true → ∃ created, reply = .context created ∧
    ((service.context key).resolveContext name).Gives t (.ok (service.context created)) ∧
    ∀ max, ((service.context created).list max).Gives t (.ok ([], none))

end Verb

/-- What binding or unbinding a label in a context leaves as it is. -/
structure Service.Framed (service : Service) (s t : Server) (parent : ContextKey) (last : Label)
    (target : Option Target) (reply : Reply) : Prop where
  /-- Every record stays, but that of the context and that of a context that was just made. -/
  records : ∀ other, other ≠ parent → reply ≠ .context other →
    t.store.disk.contexts.get? (Disk.place other) = s.store.disk.contexts.get? (Disk.place other)
  /-- The other bindings of the context stay what and where they are, unless the context was just
  made and had none. -/
  bindings : reply = .context parent ∧ s.store.disk.contains parent = false ∨
    ∃ stored changed, s.store.disk.load parent = .ok (some stored) ∧
      t.store.disk.load parent = .ok (some changed) ∧
      BindingSet.Revised last.val target stored.entries changed.entries
  /-- Every name means what it meant if its walk does not look the label up in the context. -/
  names : ∀ other name, s.store.disk.contains other = true →
    ¬ s.store.disk.LooksUp parent last other name.labels →
    ((service.context other).resolve name).Gives s (s.store.disk.resolve other name) ∧
      ((service.context other).resolve name).Gives t (s.store.disk.resolve other name)

section

variable {service : Service} {s t : Server} {key parent : ContextKey} {name : Name}
  {init : List Label} {last : Label} {target : Option Target} {reply : Reply}

/-- What is left as it is when only the record of a context was written. -/
theorem Disk.Revises.framed (h : s.store.disk.Revises t.store.disk parent last target)
    (hs : s.Ready) (hsound : s.Sound) (ht : t.Ready) (htsound : t.Sound) :
    service.Framed s t parent last target reply := by
  refine ⟨fun other hne _ => h.others other hne, .inr h.bindings, ?_⟩
  intro other name _ hnot
  have hsame := Disk.resolve_frame hsound.disk htsound.disk (h.alike_off hnot)
  have hbefore := ((service.context other).views_resolve name).gives hs hsound
  have hafter := ((service.context other).views_resolve name).gives ht htsound
  exact ⟨hbefore, hsame ▸ hafter⟩

/-- What is left as it is when a context was made and bound. -/
theorem Disk.Revises.framed_made {n : Nat} {base : Disk} {created : ContextKey}
    (h : base.Revises t.store.disk parent last target) (hkeyed : s.store.disk.Keyed n)
    (hmade : s.store.disk.create = .ok (created, base))
    (hs : s.Ready) (hsound : s.Sound) (ht : t.Ready) (htsound : t.Sound) :
    service.Framed s t parent last target (.context created) := by
  refine ⟨fun other hne hreply => ?_, ?_, fun other name hother hnot => ?_⟩
  · have hcreated : other ≠ created := fun he => hreply (congrArg Reply.context he.symm)
    rw [h.others other hne, Disk.create_others hmade hcreated]
  · by_cases hparent : parent = created
    · subst hparent
      obtain ⟨rfl, _⟩ := hkeyed.created hmade
      exact .inl ⟨rfl, hkeyed.not_contains⟩
    · obtain ⟨stored, changed, hload, hchanged, hrevised⟩ := h.bindings
      rw [Disk.load_congr (Disk.create_others hmade hparent)] at hload
      exact .inr ⟨stored, changed, hload, hchanged, hrevised⟩
  · have hsame := Disk.resolve_frame hsound.disk htsound.disk
      (h.alike_made hkeyed hmade hother hnot)
    have hbefore := ((service.context other).views_resolve name).gives hs hsound
    have hafter := ((service.context other).views_resolve name).gives ht htsound
    exact ⟨hbefore, hsame ▸ hafter⟩

/-- A context that was made and bound is found by its name and empty. -/
theorem Disk.Revises.found_made {n : Nat} {base : Disk} {created : ContextKey}
    (h : base.Revises t.store.disk parent last (some (.context created)))
    (hkeyed : s.store.disk.Keyed n) (hmade : s.store.disk.create = .ok (created, base))
    (hfree : base.bound parent last = none) (hname : name.labels = init ++ [last])
    (hleads : s.store.disk.Leads key init parent) (ht : t.Ready) (htsound : t.Sound) :
    Verb.bindNewContext.Found service s t key name init last parent (.context created) := by
  intro hkey
  have hparent : parent ≠ created :=
    hkeyed.not_created hmade hkey (.of_leads hleads last [])
  have hnot : ¬ s.store.disk.LooksUp parent last key init := by
    apply hleads.not_looksUp
    intro next hlink
    have hbound := (Disk.alike_of_record (Disk.create_others hmade hparent) last).bound
    rw [hfree, hlink] at hbound
    cases hbound
  have hresolve := h.resolve hname hleads (h.alike_made hkeyed hmade hkey hnot)
  have hempty : t.store.disk.load created = .ok (some .empty) := by
    rw [Disk.load_congr (h.others created hparent.symm), Disk.load_created hmade]
  refine ⟨created, rfl, ?_, fun max => ?_⟩
  · have hgives := ((service.context key).views_resolveContext name).gives ht htsound
    have hcontext : t.store.disk.resolve (service.context key).key name =
      .ok (.context created) := hresolve
    rw [hcontext] at hgives
    exact hgives
  · have hviews : ((service.context created).list max).Views [.load] fun d => d.look created _ :=
      Context.views_look created .list _
    have hgives := hviews.gives ht htsound
    rw [Disk.look_stored hempty] at hgives
    simpa [BindingSet.page, BindingSet.empty] using hgives

/-- What comes of binding a name to a target. Only another context can take the place of a context
on the way. -/
theorem Disk.bind_found {target : Target} {placement : Context.Placement}
    (h : s.store.disk.bind key name target placement = .ok t.store.disk)
    (hs : s.Ready) (hsound : s.Sound) (ht : t.Ready) (htsound : t.Sound) :
    ∃ init last parent, name.labels = init ++ [last] ∧ s.store.disk.Leads key init parent ∧
      (placement = .fresh ∨ (∃ reference, target = .object reference) →
        ¬ s.store.disk.LooksUp parent last key init) ∧
      (¬ s.store.disk.LooksUp parent last key init →
        ((service.context key).resolve name).Gives t (.ok target)) ∧
      service.Framed s t parent last (some target) reply := by
  obtain ⟨init, last, parent, hname, hleads, hrevises, hfresh⟩ :=
    Disk.bind_revises hsound.disk.allRegular h
  refine ⟨init, last, parent, hname, hleads, fun hkept => ?_, fun hnot => ?_,
    hrevises.framed hs hsound ht htsound⟩
  · apply hleads.not_looksUp
    intro next hlink
    rcases hkept with hplacement | ⟨reference, rfl⟩
    · rw [hfresh hplacement] at hlink
      cases hlink
    · exact hrevises.not_context hsound.disk hlink
  · have hbound := hrevises.resolve hname hleads (hrevises.alike_off hnot)
    have hgives := ((service.context key).views_resolve name).gives ht htsound
    exact hbound ▸ hgives

end

/-- Binding and unbinding by name do what they say and nothing else, even where contexts lead back
to themselves: only walks that look the changed label up may come elsewhere. -/
theorem Service.edit_framed {fails : StoreCall → Nat → Bool} {service : Service} {s t : Server}
    {history : History} (h : Reached fails (some service) s history) {verb : Verb}
    (hverb : verb ≠ .resolve) {key : ContextKey} {name : Name} {reply : Reply}
    (hserve : ((verb.call name).run (service.context key)).serve s = some (.ok reply, t)) :
    ∃ init last parent, name.labels = init ++ [last] ∧ s.store.disk.Leads key init parent ∧
      verb.Found service s t key name init last parent reply ∧
      service.Framed s t parent last (verb.target reply) reply := by
  have hsettled := h.settled
  have hs := hsettled.rest.ready
  have hsound := hsettled.sound
  obtain ⟨n, hkeyed, _⟩ := h.keyed
  have horderly := (verb.call name).run_orderly (service.context key)
  have ht := horderly.ready hs hserve
  have htsound := horderly.sound hs hsound hserve
  have htold := (Call.run_ends hs hsound hkeyed (h.root_below hkeyed) hserve).told_ok
  cases verb with
  | resolve => exact absurd rfl hverb
  | bind reference | rebind reference =>
    obtain ⟨_, hdone, he⟩ := Store.map_ok htold
    cases he
    obtain ⟨init, last, parent, hname, hleads, hnot, hfound, hframed⟩ :=
      Disk.bind_found hdone hs hsound ht htsound
    exact ⟨init, last, parent, hname, hleads, hfound (hnot (.inr ⟨reference, rfl⟩)), hframed⟩
  | bindContext other =>
    obtain ⟨_, hdone, he⟩ := Store.map_ok htold
    cases he
    obtain ⟨init, last, parent, hname, hleads, hnot, hfound, hframed⟩ :=
      Disk.bind_found hdone hs hsound ht htsound
    exact ⟨init, last, parent, hname, hleads, hfound (hnot (.inl rfl)), hframed⟩
  | rebindContext other =>
    obtain ⟨_, hdone, he⟩ := Store.map_ok htold
    cases he
    obtain ⟨init, last, parent, hname, hleads, _, hfound, hframed⟩ :=
      Disk.bind_found hdone hs hsound ht htsound
    exact ⟨init, last, parent, hname, hleads, hfound, hframed⟩
  | unbind =>
    obtain ⟨_, hdone, he⟩ := Store.map_ok htold
    cases he
    obtain ⟨init, last, parent, hname, hleads, hrevises⟩ :=
      Disk.unbind_revises hsound.disk.allRegular hdone
    obtain ⟨before, after, hlabels, hbefore, hgone⟩ :=
      hrevises.not_found hname hleads
    have hgives := ((service.context key).views_resolve name).gives ht htsound
    exact ⟨init, last, parent, hname, hleads, ⟨before, after, hlabels, hbefore, hgone ▸ hgives⟩,
      hrevises.framed hs hsound ht htsound⟩
  | bindNewContext =>
    obtain ⟨⟨created, _⟩, hdone, he⟩ := Store.map_ok htold
    cases he
    obtain ⟨init, last, parent, base, hname, hleads, hmade, hrevises, hfree⟩ :=
      Disk.bindNew_revises hsound.disk hdone
    exact ⟨init, last, parent, hname, hleads,
      hrevises.found_made hkeyed hmade hfree hname hleads ht htsound,
      hrevises.framed_made hkeyed hmade hs hsound ht htsound⟩

/-- A context is bound in itself, and this binding is taken away by a name that leads through it. -/
theorem Service.edit_framed_cyclic : ∃ service s history reply t,
    firstRun [.newContext, .call ⟨"NC0"⟩ (.bindContext (.single ⟨.ofId "a", rfl⟩) ⟨"NC1"⟩),
      .call ⟨"NC1"⟩ (.bindContext (.single ⟨.ofId "b", rfl⟩) ⟨"NC1"⟩)] =
        some (service, s, history) ∧
      ((Verb.unbind.call
        ⟨⟨.ofId "a", rfl⟩, [⟨.ofId "b", rfl⟩, ⟨.ofId "b", rfl⟩]⟩).run
          (service.context ⟨"NC0"⟩)).serve s = some (.ok reply, t) ∧
      ∃ init last parent,
        (⟨⟨.ofId "a", rfl⟩, [⟨.ofId "b", rfl⟩, ⟨.ofId "b", rfl⟩]⟩ : Name).labels =
          init ++ [last] ∧
        s.store.disk.Leads ⟨"NC0"⟩ init parent ∧
        Verb.unbind.Found service s t ⟨"NC0"⟩
          ⟨⟨.ofId "a", rfl⟩, [⟨.ofId "b", rfl⟩, ⟨.ofId "b", rfl⟩]⟩ init last parent reply ∧
        service.Framed s t parent last none reply := by
  have hrun : (firstRun [.newContext,
      .call ⟨"NC0"⟩ (.bindContext (.single ⟨.ofId "a", rfl⟩) ⟨"NC1"⟩),
      .call ⟨"NC1"⟩ (.bindContext (.single ⟨.ofId "b", rfl⟩) ⟨"NC1"⟩)]).any (fun p =>
        (((Verb.unbind.call
          ⟨⟨.ofId "a", rfl⟩, [⟨.ofId "b", rfl⟩, ⟨.ofId "b", rfl⟩]⟩).run
            (p.1.context ⟨"NC0"⟩)).serve p.2.1).any fun q => q.1.toOption.isSome) = true := by
    decide +kernel
  obtain ⟨⟨service, s, history⟩, hrun, hunbound⟩ := (Option.any_eq_true _ _).mp hrun
  obtain ⟨⟨result, t⟩, hserve, hok⟩ := (Option.any_eq_true _ _).mp hunbound
  cases result with
  | error failure => cases hok
  | ok reply =>
    have hverb : Verb.unbind ≠ .resolve := nofun
    exact ⟨service, s, history, reply, t, hrun, hserve,
      Service.edit_framed (Reached.firstRun hrun) hverb hserve⟩

end Naming
