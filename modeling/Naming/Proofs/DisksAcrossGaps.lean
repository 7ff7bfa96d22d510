import Naming.Proofs.NumberGaps

namespace Naming.Gap

variable {α β : Type}

/-- Two disks that hold the same, but for a gap in the numbers of the keys of the second and for
an orphan there: an empty record of which the first disk knows nothing. -/
structure Spans (g : Gap) (orphan : Option ContextKey) (n : Nat) (d e : Disk) : Prop where
  keyed : d.Keyed n
  moved : e.Keyed (n + g.width)
  after : g.first ≤ n
  root : e.root? = d.root?
  readable : ∀ key, ∃ found, d.load key = .ok found
  load : ∀ key, e.load (g.key key) = (d.load key).map (Option.map g.bindings)
  others : ∀ key, e.contains key = true → (∃ k, key = g.key k) ∨ orphan = some key
  orphaned : ∀ key, orphan = some key → e.load key = .ok (some .empty) ∧ ∀ k, key ≠ g.key k

/-- The gap lies between two disks whose counters have come no further than to some number. -/
def SpansUpTo (g : Gap) (orphan : Option ContextKey) (n : Nat) (d e : Disk) : Prop :=
  ∃ k, k ≤ n ∧ g.Spans orphan k d e

/-- Values that are related, and disks that hold the same. -/
def Both (g : Gap) (R : α → β → Prop) (orphan : Option ContextKey) (n : Nat) (p : α × Disk)
    (q : β × Disk) : Prop :=
  R p.1 q.1 ∧ g.SpansUpTo orphan n p.2 q.2

/-- Disks on which the same key was handed out or the same context was made. -/
def Makes (g : Gap) (orphan : Option ContextKey) (n : Nat) (p q : ContextKey × Disk) : Prop :=
  q.1 = g.key p.1 ∧ g.Spans orphan n p.2 q.2

/-- There are numbers left on both sides of the gap, or there are as many left on both. -/
def Room (g : Gap) (n : Nat) : Prop := g.width = 0 ∨ n + g.width < Counter.limit

namespace Spans

variable {g : Gap} {orphan : Option ContextKey} {n : Nat} {d e d' e' : Disk}
  {key root : ContextKey} {bindings : BindingSet}

theorem contains (h : g.Spans orphan n d e) (key : ContextKey) :
    e.contains (g.key key) = d.contains key := by
  obtain ⟨found, hfound⟩ := h.readable key
  have hload := h.load key
  rw [hfound] at hload
  cases found with
  | none =>
    rw [Disk.contains_eq, Disk.contains_eq, Disk.load_none_iff.mp hfound,
      Disk.load_none_iff.mp hload]
  | some bindings =>
    rw [Disk.contains_of_load hfound, Disk.contains_of_load hload]

theorem look {R : α → β → Prop} {view : BindingSet → Except Failure α}
    {view' : BindingSet → Except Failure β} (h : g.Spans orphan n d e) (key : ContextKey)
    (hv : ∀ s, g.Agree R (view s) (view' (g.bindings s))) :
    g.Agree R (d.look key view) (e.look (g.key key) view') := by
  obtain ⟨found, hfound⟩ := h.readable key
  have hload := h.load key
  rw [hfound] at hload
  unfold Disk.look Disk.found
  rw [hfound, hload]
  cases found with
  | none => exact .failed (.told rfl)
  | some bindings => exact hv bindings

theorem look_bindings (h : g.Spans orphan n d e) (key : ContextKey) :
    g.Agree (fun s t => t = g.bindings s) (d.look key .ok) (e.look (g.key key) .ok) :=
  h.look key fun _ => .done rfl

theorem look_any (h : g.Spans orphan n d e) (key : ContextKey) :
    g.Agree (fun _ _ => True) (d.look key fun _ => .ok ()) (e.look (g.key key) fun _ => .ok ()) :=
  h.look key fun _ => .done trivial

theorem walkFrom (h : g.Spans orphan n d e) (key : ContextKey) (first : Label)
    (rest : List Label) : g.Agree (fun p q => q = (g.key p.1, p.2))
      (d.walkFrom key first rest) (e.walkFrom (g.key key) first rest) := by
  induction rest generalizing key first with
  | nil => exact .done rfl
  | cons next rest ih =>
    have hview : ∀ s, g.Agree (fun child child' => child' = g.key child)
        (Context.childIn ⟨first, next :: rest⟩ s)
        (Context.childIn ⟨first, next :: rest⟩ (g.bindings s)) := by
      intro s
      rw [childIn_bindings]
      exact .of_map fun _ => Failure.keyless_childIn
    refine (h.look key hview).bind fun child child' _ he => ?_
    subst he
    exact ih child next

theorem resolve (h : g.Spans orphan n d e) (key : ContextKey) (name : Name) :
    g.Agree (fun t t' => t' = g.target t) (d.resolve key name) (e.resolve (g.key key) name) := by
  refine (h.walkFrom key name.first name.rest).bind fun p q _ he => ?_
  subst he
  refine h.look p.1 fun s => ?_
  rw [targetIn_bindings]
  exact .of_map fun _ => Failure.keyless_targetIn

theorem accepts (h : g.Spans orphan n d e) (key : ContextKey) (target : Target) :
    g.Agree (fun _ _ => True) (d.accepts key target) (e.accepts (g.key key) (g.target target)) := by
  cases target with
  | object reference => exact .done trivial
  | context other =>
    simp only [Disk.accepts, Gap.target, g.key_inj, h.contains]
    split
    · exact .done trivial
    · split
      · exact .done trivial
      · exact .failed (.told rfl)

theorem fits_key (h : g.Spans orphan n d e) (hkey : key.Below n) :
    Record.fitsText key.text = true ∧ Record.fitsText (g.key key).text = true := by
  have hfits : ∀ {m : Nat} {k : ContextKey}, m < Counter.limit → k.Below m →
      Record.fitsText k.text = true := by
    rintro m k hm ⟨i, hi, rfl⟩
    exact ContextKey.fitsText_ofIndex (Nat.lt_trans hi hm)
  exact ⟨hfits (Disk.highWaterMark_lt h.keyed.counter) hkey,
    hfits (Disk.highWaterMark_lt h.moved.counter) (below_key hkey)⟩

theorem fits (h : g.Spans orphan n d e) (hkey : key.Below n)
    (hlinks : ∀ other ∈ bindings.contexts, other.Below n) :
    (Record.mk Record.currentVersion (g.key key) (g.bindings bindings)).fits =
      (Record.mk Record.currentVersion key bindings).fits := by
  obtain ⟨hfits, hmoved⟩ := h.fits_key hkey
  have hentries : (bindings.entries.map g.binding).all Record.fitsBinding =
      bindings.entries.all Record.fitsBinding := by
    rw [List.all_map, Bool.eq_iff_iff, List.all_eq_true, List.all_eq_true]
    refine forall₂_congr fun b hb => ?_
    obtain ⟨name, target⟩ := b
    cases target with
    | object reference => rfl
    | context other =>
      obtain ⟨hother, hother'⟩ :=
        h.fits_key (hlinks other (BindingSet.mem_contexts.mpr ⟨_, hb, rfl⟩))
      simp only [Function.comp_apply, binding, Gap.target, Record.fitsBinding, Record.fitsTarget,
        hother, hother']
  simp only [Record.fits, hfits, hmoved, BindingSet.size, Gap.bindings, List.length_map,
    hentries]
  rfl

/-- The same bindings are written under the same key. -/
theorem written (h : g.Spans orphan n d e) (hkey : key.Below n)
    (hlinks : ∀ other ∈ bindings.contexts, other.Below n) (hput : d.put key bindings = .ok d')
    (hput' : e.put (g.key key) (g.bindings bindings) = .ok e') : g.Spans orphan n d' e' := by
  have hsaved := Disk.put_ok hput
  have hsaved' := Disk.put_ok hput'
  refine ⟨h.keyed.put hkey hlinks hput, h.moved.put (below_key hkey) (fun other ho => ?_) hput',
    h.after, ?_, fun k => ?_, fun k => ?_, fun k hc => ?_, fun k hk => ?_⟩
  · rw [contexts_bindings] at ho
    obtain ⟨k, hk, rfl⟩ := List.mem_map.mp ho
    exact below_key (hlinks k hk)
  · rw [Disk.root?_congr (Disk.marks_save hsaved), Disk.root?_congr (Disk.marks_save hsaved'),
      h.root]
  · by_cases he : k = key
    · exact ⟨_, he ▸ Disk.load_save hsaved⟩
    · rw [Disk.load_save_other hsaved he]
      exact h.readable k
  · by_cases he : k = key
    · rw [he, Disk.load_save hsaved, Disk.load_save hsaved']
      simp only [Except.map, Option.map_some, bindings_ofList]
      rfl
    · rw [Disk.load_save_other hsaved he,
        Disk.load_save_other hsaved' fun hk => he (g.key_injective hk)]
      exact h.load k
  · rw [Disk.contains_put hput'] at hc
    by_cases he : k = g.key key
    · exact .inl ⟨key, he⟩
    · simp only [he, decide_false, Bool.false_or] at hc
      exact h.others k hc
  · obtain ⟨hload, hne⟩ := h.orphaned k hk
    exact ⟨(Disk.load_save_other hsaved' (hne key)).trans hload, hne⟩

theorem put (h : g.Spans orphan n d e) (hkey : key.Below n)
    (hlinks : ∀ other ∈ bindings.contexts, other.Below n) :
    g.Agree (g.Spans orphan n) (d.put key bindings)
      (e.put (g.key key) (g.bindings bindings)) := by
  have hput := Disk.put_eq_if d key bindings
  have hput' := Disk.put_eq_if e (g.key key) (g.bindings bindings)
  rw [h.fits hkey hlinks] at hput'
  split at hput
  · rename_i hfits
    rw [if_pos hfits] at hput'
    rw [hput, hput']
    exact .done (h.written hkey hlinks hput hput')
  · rename_i hfits
    rw [if_neg hfits] at hput'
    rw [hput, hput']
    exact .failed (.oversized key)

/-- The same record is removed. -/
theorem removed (h : g.Spans orphan n d e) (key : ContextKey) :
    g.Spans orphan n (d.remove key) (e.remove (g.key key)) := by
  have hrecords : ∀ (f : Disk) (k : ContextKey) (place : Bytes),
      (f.remove k).contexts.get? place = f.contexts.get? place ∨
        (f.remove k).contexts.get? place = none := by
    intro f k place
    rw [Disk.get?_remove]
    split
    · exact .inr rfl
    · exact .inl rfl
  have hgone : ∀ (f : Disk) (k : ContextKey), (f.remove k).load k = .ok none := by
    intro f k
    refine Disk.load_none_iff.mpr ?_
    rw [Disk.get?_remove, if_pos rfl]
  refine ⟨h.keyed.pruned rfl (hrecords d key), h.moved.pruned rfl (hrecords e (g.key key)),
    h.after, h.root, fun k => ?_, fun k => ?_, fun k hc => ?_, fun k hk => ?_⟩
  · by_cases he : k = key
    · exact ⟨none, he ▸ hgone d k⟩
    · rw [Disk.load_remove_other he]
      exact h.readable k
  · by_cases he : k = key
    · rw [he, hgone, hgone]
      rfl
    · rw [Disk.load_remove_other he, Disk.load_remove_other fun hk => he (g.key_injective hk)]
      exact h.load k
  · rw [Disk.contains_remove] at hc
    exact h.others k (Bool.and_eq_true_iff.mp hc).2
  · obtain ⟨hload, hne⟩ := h.orphaned k hk
    exact ⟨(Disk.load_remove_other (hne key)).trans hload, hne⟩

/-- The same key is handed out. -/
theorem handed {created created' : ContextKey} (h : g.Spans orphan n d e)
    (ha : d.allocate = .ok (created, d')) (ha' : e.allocate = .ok (created', e')) :
    created' = g.key created ∧ g.Spans orphan (n + 1) d' e' := by
  obtain ⟨hkey, hcontexts, hkeyed⟩ := h.keyed.allocated ha
  obtain ⟨hkey', hcontexts', hmoved⟩ := h.moved.allocated ha'
  have hload : ∀ k, d'.load k = d.load k := fun k => Disk.load_congr (by rw [hcontexts])
  have hload' : ∀ k, e'.load k = e.load k := fun k => Disk.load_congr (by rw [hcontexts'])
  refine ⟨by rw [hkey, hkey', key_high h.after], hkeyed, ?_, Nat.le_succ_of_le h.after, ?_,
    fun k => ?_, fun k => ?_, fun k hc => ?_, fun k hk => ?_⟩
  · rw [Nat.add_right_comm]
    exact hmoved
  · rw [Disk.allocate_root ha, Disk.allocate_root ha', h.root]
  · rw [hload]
    exact h.readable k
  · rw [hload, hload']
    exact h.load k
  · rw [Disk.contains_eq, hcontexts', ← Disk.contains_eq] at hc
    exact h.others k hc
  · rw [hload']
    exact h.orphaned k hk

theorem create (h : g.Spans orphan n d e) (hroom : g.Room (n + 1)) :
    g.Agree (g.Makes orphan (n + 1)) d.create e.create := by
  have hallocate := Disk.allocate_eq h.keyed.counter
  have hallocate' := Disk.allocate_eq h.moved.counter
  have hlimit : n + 1 < Counter.limit ↔ n + g.width + 1 < Counter.limit := by
    rcases hroom with hwidth | hlt
    · rw [hwidth, Nat.add_zero]
    · omega
  rw [Disk.create_eq, Disk.create_eq]
  by_cases hlt : n + 1 < Counter.limit
  · rw [if_pos hlt] at hallocate
    rw [if_pos (hlimit.mp hlt)] at hallocate'
    obtain ⟨hkey, hspans⟩ := h.handed hallocate hallocate'
    have hempty : ∀ other ∈ BindingSet.empty.contexts, other.Below (n + 1) := by
      intro other ho
      rw [BindingSet.contexts_empty] at ho
      cases ho
    have hput := hspans.put (ContextKey.below_succ n) hempty
    rw [hallocate, hallocate']
    rw [← hkey] at hput
    exact hput.map fun _ _ hd => ⟨hkey, hd⟩
  · rw [if_neg hlt] at hallocate
    rw [if_neg fun hlt' => hlt (hlimit.mpr hlt')] at hallocate'
    rw [hallocate, hallocate']
    exact .failed (.told rfl)

theorem bindLast (h : g.Spans orphan n d e) (key : ContextKey) (last : Label) (target : Target)
    (placement : Context.Placement) :
    g.Agree (g.Spans orphan n) (d.bindLast key last target placement)
      (e.bindLast (g.key key) last (g.target target) placement) := by
  refine (h.look_bindings key).bind fun s t hlook ht => ?_
  subst ht
  refine (h.accepts key target).bind fun _ _ haccept _ => ?_
  have hchange : g.Agree (fun p q => q = (p.1, g.bindings p.2))
      (placement.change ⟨last.val, target⟩ s)
      (placement.change (g.binding ⟨last.val, target⟩) (g.bindings s)) := by
    rw [change_bindings]
    exact .of_map fun _ => Failure.keyless_change
  refine hchange.bind fun p q hp hq => ?_
  subst hq
  obtain ⟨_, hload, hsame⟩ := Disk.look_ok hlook
  cases hsame
  have hstored := Disk.contains_of_load hload
  refine h.put (h.keyed.records key hstored) fun other ho => ?_
  have hentries := fun c hc => BindingSet.mem_change (c := c) hp hc
  rcases BindingSet.mem_contexts_of_entries hentries ho with hold | hnew
  · exact h.keyed.links key other (Disk.links_of_load hload ▸ hold)
  · have htarget : target = .context other := hnew
    rw [htarget] at haccept
    exact h.keyed.records other (Disk.accepts_context haccept hstored)

theorem bind (h : g.Spans orphan n d e) (key : ContextKey) (name : Name) (target : Target)
    (placement : Context.Placement) : g.Agree (g.Spans orphan n) (d.bind key name target placement)
      (e.bind (g.key key) name (g.target target) placement) := by
  refine (h.walkFrom key name.first name.rest).bind fun p q _ hq => ?_
  subst hq
  exact h.bindLast p.1 p.2 target placement

theorem unbindLast (h : g.Spans orphan n d e) (key : ContextKey) (last : Label) :
    g.Agree (g.Spans orphan n) (d.unbindLast key last) (e.unbindLast (g.key key) last) := by
  refine (h.look_bindings key).bind fun s t hlook ht => ?_
  subst ht
  obtain ⟨_, hload, hsame⟩ := Disk.look_ok hlook
  cases hsame
  rw [get?_bindings, Option.isSome_map]
  split
  · rw [remove_bindings]
    refine h.put (h.keyed.records key (Disk.contains_of_load hload)) fun other ho => ?_
    obtain ⟨b, hb, htarget⟩ := BindingSet.mem_contexts.mp ho
    refine h.keyed.links key other ?_
    rw [Disk.links_of_load hload]
    exact BindingSet.mem_contexts.mpr ⟨b, BindingSet.mem_remove hb, htarget⟩
  · exact .keyless ⟨rfl, fun _ => rfl⟩

theorem unbind (h : g.Spans orphan n d e) (key : ContextKey) (name : Name) :
    g.Agree (g.Spans orphan n) (d.unbind key name) (e.unbind (g.key key) name) := by
  refine (h.walkFrom key name.first name.rest).bind fun p q _ hq => ?_
  subst hq
  exact h.unbindLast p.1 p.2

theorem destroy (h : g.Spans orphan n d e) (hroot : root.Below g.first) (key : ContextKey) :
    g.Agree (g.Spans orphan n) (d.destroy root key) (e.destroy root (g.key key)) := by
  have hkey : g.key key = g.key root ↔ key = root := g.key_inj
  rw [key_below hroot] at hkey
  unfold Disk.destroy
  by_cases he : key = root
  · rw [if_pos he, if_pos (hkey.mpr he)]
    exact .failed (.told rfl)
  · rw [if_neg he, if_neg fun hk => he (hkey.mp hk)]
    have hview : ∀ s : BindingSet, g.Agree (fun _ _ => True)
        (if s.isEmpty then .ok () else .error (.notEmpty key) : Except Failure Unit)
        (if (g.bindings s).isEmpty then .ok () else .error (.notEmpty (g.key key))) := by
      intro s
      have hempty : (g.bindings s).isEmpty = s.isEmpty := List.isEmpty_map
      rw [hempty]
      split
      · exact .done trivial
      · exact .failed (.told rfl)
    exact (h.look key hview).bind fun _ _ _ _ => .done (h.removed key)

theorem createFrom (h : g.Spans orphan n d e) (hroom : g.Room (n + 1)) (key : ContextKey) :
    g.Agree (g.Makes orphan (n + 1)) (d.createFrom key) (e.createFrom (g.key key)) :=
  (h.look_any key).bind fun _ _ _ _ => h.create hroom

theorem createUnder (h : g.Spans orphan n d e) (hroom : g.Room (n + 1)) (key : ContextKey)
    (name : Name) : g.Agree (g.Makes orphan (n + 1)) (d.createUnder key name)
      (e.createUnder (g.key key) name) :=
  (h.walkFrom key name.first name.rest).bind fun _ _ _ _ => h.create hroom

theorem bindNew (h : g.Spans orphan n d e) (hroom : g.Room (n + 1)) (key : ContextKey)
    (name : Name) : g.Agree (g.Makes orphan (n + 1)) (d.bindNew key name)
      (e.bindNew (g.key key) name) := by
  refine (h.walkFrom key name.first name.rest).bind fun p q _ hq => ?_
  subst hq
  refine (h.create hroom).bind fun made made' _ hmade => ?_
  obtain ⟨created, d⟩ := made
  obtain ⟨created', e⟩ := made'
  obtain ⟨hcreated, hspans⟩ := hmade
  have hcreated : created' = g.key created := hcreated
  subst hcreated
  exact (hspans.bindLast p.1 p.2 (.context created) .fresh).bind fun _ _ _ hd => .done ⟨rfl, hd⟩

theorem mono {m : Nat} (h : g.Spans orphan n d e) (hle : n ≤ m) : g.SpansUpTo orphan m d e :=
  ⟨n, hle, h⟩

/-- What is left when a context cannot be made and bound: a key is spent on both sides or on
neither. -/
theorem spoiled (h : g.Spans orphan n d e) (hroom : g.Room (n + 1)) (key : ContextKey)
    (name : Name) :
    g.SpansUpTo orphan (n + 1) (d.spoiled key name) (e.spoiled (g.key key) name) := by
  have hunder := h.createUnder hroom key name
  unfold Disk.spoiled
  cases hd : d.createUnder key name with
  | error failure =>
    rw [hd] at hunder
    cases he : e.createUnder (g.key key) name with
    | error failure => exact h.mono (Nat.le_succ n)
    | ok q =>
      rw [he] at hunder
      cases hunder
  | ok p =>
    rw [hd] at hunder
    cases he : e.createUnder (g.key key) name with
    | error failure =>
      rw [he] at hunder
      cases hunder
    | ok q =>
      rw [he] at hunder
      cases hunder with
      | done both =>
        obtain ⟨hcreated, hspans⟩ := both
        dsimp only
        rw [hcreated]
        exact (hspans.removed p.1).mono (Nat.le_refl _)

variable {c : Context} {call : Call}

/-- Each call leaves the same on both sides when it fails. -/
theorem call_spoils (h : g.Spans orphan n d e) (hroom : g.Room (n + call.creates.toNat)) :
    g.SpansUpTo orphan (n + call.creates.toNat) (call.spoils c d)
      ((g.call call).spoils { c with key := g.key c.key } e) := by
  cases call with
  | bindNewContext name => exact h.spoiled hroom c.key name
  | _ => exact h.mono (Nat.le_add_right n _)

/-- Replies that say the same, and disks that hold the same after them. -/
abbrev Replies (g : Gap) (orphan : Option ContextKey) (n : Nat) : Reply × Disk → Reply × Disk →
    Prop :=
  g.Both (fun r r' => r' = g.reply r) orphan n

theorem replies {x y : Except Failure Disk} {reply : Reply} (hreply : g.reply reply = reply)
    (h : g.Agree (g.Spans orphan n) x y) :
    g.Agree (Replies g orphan (n + 0)) (x.map (reply, ·)) (y.map (reply, ·)) :=
  h.map fun _ _ hd => ⟨hreply.symm, hd.mono (Nat.le_refl n)⟩

theorem replies_view {R : α → β → Prop} {x : Except Failure α} {y : Except Failure β}
    {f : α → Reply} {f' : β → Reply} (h : g.Spans orphan n d e) (hview : g.Agree R x y)
    (hf : ∀ a b, R a b → f' b = g.reply (f a)) :
    g.Agree (Replies g orphan (n + 0)) (x.map (f ·, d)) (y.map (f' ·, e)) :=
  hview.map fun a b hab => ⟨hf a b hab, h.mono (Nat.le_refl n)⟩

theorem replies_made {x y : Except Failure (ContextKey × Disk)}
    (h : g.Agree (g.Makes orphan (n + 1)) x y) : g.Agree (Replies g orphan (n + 1))
      (x.map fun p => (Reply.context p.1, p.2)) (y.map fun p => (Reply.context p.1, p.2)) :=
  h.map fun _ _ hmade => ⟨congrArg Reply.context hmade.1, hmade.2.mono (Nat.le_refl _)⟩

/-- Each call is told the same on both sides. -/
theorem call_told (h : g.Spans orphan n d e) (hroot : c.root.Below g.first)
    (hroom : g.Room (n + call.creates.toNat)) :
    g.Agree (Replies g orphan (n + call.creates.toNat)) (call.told c d)
      ((g.call call).told { c with key := g.key c.key } e) := by
  have hany := h.look_any c.key
  cases call with
  | bind name reference => exact replies rfl (h.bind c.key name (.object reference) .fresh)
  | bindContext name key => exact replies rfl (h.bind c.key name (.context key) .fresh)
  | rebind name reference => exact replies rfl (h.bind c.key name (.object reference) .anew)
  | rebindContext name key => exact replies rfl (h.bind c.key name (.context key) .anew)
  | unbind name => exact replies rfl (h.unbind c.key name)
  | destroy => exact replies rfl (h.destroy hroot c.key)
  | resolve name =>
    exact h.replies_view (h.resolve c.key name) fun _ _ ht => congrArg Reply.resolved ht
  | list max =>
    have hpage : ∀ s : BindingSet, g.Agree (fun r r' => r' = g.reply r)
        (.ok (s.listing max)) (.ok ((g.bindings s).listing max)) :=
      fun s => .done (g.listing_bindings s max)
    exact h.replies_view (h.look c.key hpage) fun _ _ hr => hr
  | toText name => exact h.replies_view hany fun _ _ _ => rfl
  | toName text =>
    refine hany.bind fun _ _ _ _ => ?_
    cases Name.ofText text with
    | error fault => exact .keyless (Failure.keyless_ofFault fault)
    | ok name => exact .done ⟨rfl, h.mono (Nat.le_refl n)⟩
  | resolveText text =>
    simp only [Gap.call, Call.told]
    cases Name.ofText text with
    | error fault => exact .keyless (Failure.keyless_ofFault fault)
    | ok name =>
      exact h.replies_view (h.resolve c.key name) fun _ _ ht => congrArg Reply.resolved ht
  | newContext => exact replies_made (h.createFrom hroom c.key)
  | bindNewContext name => exact replies_made (h.bindNew hroom c.key name)

end Spans

end Naming.Gap
