import Mathlib.Data.List.Nodup
import Naming.Proofs.DisksAcrossGaps
import Naming.Proofs.Garbage

namespace Naming

variable {α β : Type}

namespace Server

/-- The server when from now on its store refuses no call. -/
def calm (s : Server) : Server := { s with store := { s.store with faults := {} } }

/-- What holds of a server between two tasks when its store refuses no call. -/
structure Calm (s : Server) : Prop where
  rest : s.AtRest
  sound : s.Sound
  willing : s.store.Willing
  numbered : s.Numbered

end Server

/-- A calm server answers each task and is calm afterwards. -/
theorem Server.Calm.serves {s : Server} (h : s.Calm) (task : Task) (service : Service) :
    ∃ answer t, (task.request service).serve s = some (answer, t) ∧ t.Calm ∧
      s.Marked t answer task.handsOut task.settles := by
  obtain ⟨answer, t, hserve, hrest, hsound⟩ := task.serves service h.rest
  have hmarked := Task.request_marked h.rest h.numbered hserve
  have hcounts := Job.run_counts hserve
  refine ⟨answer, t, hserve, ⟨hrest, hsound h.sound, (Job.run_fails hserve).trans h.willing, ?_⟩,
    hmarked⟩
  cases answer with
  | error failure =>
    have hmarks : s.Marks t none none := hmarked
    exact hmarks.numbered hcounts h.numbered
  | ok answer =>
    have hmarks : s.Marks t (task.handsOut answer) task.settles := hmarked
    exact hmarks.numbered hcounts h.numbered

namespace Gap

/-- Answers that say the same on both sides of a gap. As long as there is an orphan it is counted,
and the sweep that removes it lists it. -/
inductive Answers (g : Gap) (orphan : Option ContextKey) : Answer → Answer → Prop
  | reply (reply : Reply) : g.Answers orphan (.reply reply) (.reply (g.reply reply))
  | context (key : ContextKey) : g.Answers orphan (.context key) (.context (g.key key))
  | count (contexts : Nat) :
      g.Answers orphan (.count contexts) (.count (contexts + orphan.toList.length))
  | swept {keys keys' : List ContextKey} (same : keys'.Perm (orphan.toList ++ keys.map g.key)) :
      g.Answers orphan (.swept keys) (.swept keys')

/-- Two calm servers that hold the same on both sides of a gap. -/
structure Divides (g : Gap) (orphan : Option ContextKey) (n : Nat) (s t : Server) : Prop where
  calm : s.Calm
  moved : t.Calm
  spans : g.Spans orphan n s.store.disk t.store.disk
  unbound : ∀ key, g.key key ∈ t.memory.unbound ↔ key ∈ s.memory.unbound
  known : ∀ key ∈ t.memory.unbound, ∃ k, key = g.key k

variable {g : Gap} {orphan : Option ContextKey} {n m : Nat} {s t s' t' : Server}
  {service : Service}

/-- Requests that are told the same come to the same, when no call is refused. -/
theorem ends_agree {R : α → β → Prop} {creates creates' bindsNew bindsNew' : Bool}
    {told : Except Failure (α × Disk)} {told' : Except Failure (β × Disk)} {spoils spoils' : Disk}
    {result : Except Failure α} {result' : Except Failure β} (hs : s.Calm) (ht : t.Calm)
    (h : Store.Ends creates bindsNew told spoils s.store s'.store result)
    (h' : Store.Ends creates' bindsNew' told' spoils' t.store t'.store result')
    (htold : g.Agree (g.Both R orphan n) told told')
    (hspoils : g.SpansUpTo orphan n spoils spoils') :
    g.Agree R result result' ∧ g.SpansUpTo orphan n s'.store.disk t'.store.disk := by
  cases result with
  | ok a =>
    rw [h.told_ok] at htold
    cases result' with
    | ok b =>
      rw [h'.told_ok] at htold
      cases htold with
      | done both => exact ⟨.done both.1, both.2⟩
    | error failure =>
      rw [(h'.told_error ht.willing).1] at htold
      cases htold
  | error failure =>
    obtain ⟨hfailed, hleft⟩ := h.told_error hs.willing
    rw [hfailed] at htold
    cases result' with
    | ok b =>
      rw [h'.told_ok] at htold
      cases htold
    | error failure' =>
      obtain ⟨hfailed', hleft'⟩ := h'.told_error ht.willing
      rw [hfailed'] at htold
      cases htold with
      | failed both => exact ⟨.failed both, hleft ▸ hleft' ▸ hspoils⟩

/-- Each call is answered the same on both sides. -/
theorem call_agree {key : ContextKey} {call : Call} {result result' : Except Failure Reply}
    (h : g.Divides orphan n s t) (hroot : service.root.Below g.first)
    (hroom : g.Room (n + call.creates.toNat))
    (hs : (call.run (service.context key)).serve s = some (result, s'))
    (ht : ((g.call call).run (service.context (g.key key))).serve t = some (result', t')) :
    g.Agree (fun r r' => r' = g.reply r) result result' ∧
      g.SpansUpTo orphan (n + call.creates.toNat) s'.store.disk t'.store.disk := by
  have hbelow : service.root.Below n := hroot.mono h.spans.after
  have hends := Call.run_ends h.calm.rest.ready h.calm.sound h.spans.keyed hbelow hs
  have hends' := Call.run_ends h.moved.rest.ready h.moved.sound h.spans.moved
    (hbelow.mono (Nat.le_add_right n _)) ht
  exact ends_agree h.calm h.moved hends hends'
    (h.spans.call_told (c := service.context key) hroot hroom)
    (h.spans.call_spoils (c := service.context key) hroom)

/-- What is made of replies that say the same says the same. -/
theorem reply_agree {r r' : Request Reply} {answer answer' : Except Failure Answer}
    (hs : (r >>= fun reply => (pure (Answer.reply reply) : Request Answer)).serve s =
      some (answer, s'))
    (ht : (r' >>= fun reply => (pure (Answer.reply reply) : Request Answer)).serve t =
      some (answer', t'))
    (hr : ∀ result result', r.serve s = some (result, s') → r'.serve t = some (result', t') →
      g.Agree (fun r r' => r' = g.reply r) result result' ∧
        g.SpansUpTo orphan n s'.store.disk t'.store.disk) :
    g.Agree (g.Answers orphan) answer answer' ∧
      g.SpansUpTo orphan n s'.store.disk t'.store.disk := by
  obtain ⟨outcome, hr₁, rfl⟩ := Request.serve_map_cases hs
  obtain ⟨outcome', hr₂, rfl⟩ := Request.serve_map_cases ht
  obtain ⟨hagree, hspans⟩ := hr _ _ hr₁ hr₂
  refine ⟨hagree.map fun reply reply' he => ?_, hspans⟩
  subst he
  exact .reply reply

theorem refused_call (g : Gap) (call : Call) (operation : String) :
    (g.call call).refused operation = call.refused operation := by
  cases call <;> rfl

theorem Divides.note (h : g.Divides orphan n s t) (event event' : Log.Event) :
    g.Divides orphan n (s.note event) (t.note event') :=
  ⟨⟨⟨h.calm.rest.idle, h.calm.rest.free⟩, ⟨h.calm.sound.disk, h.calm.sound.resident⟩,
      h.calm.willing, h.calm.numbered⟩,
    ⟨⟨h.moved.rest.idle, h.moved.rest.free⟩, ⟨h.moved.sound.disk, h.moved.sound.resident⟩,
      h.moved.willing, h.moved.numbered⟩, h.spans, h.unbound, h.known⟩

theorem handle_agree (key : ContextKey) {operation : String} {call : Call}
    {result result' : Except Failure Reply} (h : g.Divides orphan n s t)
    (hroot : service.root.Below g.first) (hroom : g.Room (n + call.creates.toNat))
    (hs : (service.handle key.text operation call).serve s = some (result, s'))
    (ht : (service.handle (g.key key).text operation (g.call call)).serve t = some (result', t')) :
    g.Agree (fun r r' => r' = g.reply r) result result' ∧
      g.SpansUpTo orphan (n + call.creates.toNat) s'.store.disk t'.store.disk := by
  rcases service.handle_serves key.text operation call s with
    ⟨failure, hrefused, hserve⟩ | ⟨hrefused, event, hserve⟩
  · rcases service.handle_serves (g.key key).text operation (g.call call) t with
      ⟨failure', hrefused', hserve'⟩ | ⟨hrefused', _⟩
    · rw [refused_call, hrefused] at hrefused'
      cases hrefused'
      cases hs.symm.trans hserve
      cases ht.symm.trans hserve'
      exact ⟨.keyless (Failure.keyless_refused hrefused), h.spans.mono (Nat.le_add_right n _)⟩
    · rw [refused_call, hrefused] at hrefused'
      cases hrefused'
  · rcases service.handle_serves (g.key key).text operation (g.call call) t with
      ⟨failure', hrefused', _⟩ | ⟨_, event', hserve'⟩
    · rw [refused_call, hrefused] at hrefused'
      cases hrefused'
    · exact call_agree (h.note event event') hroot hroom (hserve ▸ hs) (hserve' ▸ ht)

/-- What both sides look at is answered the same. -/
theorem view_agree {γ γ' : Type} {r : Request α} {r' : Request β} {f : α → γ} {f' : β → γ'}
    {kinds kinds' : List StoreCall} {view : Disk → Except Failure α}
    {view' : Disk → Except Failure β} {R : γ → γ' → Prop} {result : Except Failure γ}
    {result' : Except Failure γ'} (h : g.Divides orphan n s t) (hr : r.Views kinds view)
    (hr' : r'.Views kinds' view')
    (hviews : g.Agree (fun a b => R (f a) (f' b)) (view s.store.disk) (view' t.store.disk))
    (hs : (r >>= fun a => (pure (f a) : Request γ)).serve s = some (result, s'))
    (ht : (r' >>= fun a => (pure (f' a) : Request γ')).serve t = some (result', t')) :
    g.Agree R result result' ∧ g.SpansUpTo orphan n s'.store.disk t'.store.disk := by
  have hends : Store.Ends false false _ s.store.disk s.store s'.store result :=
    hr.ends rfl h.calm.rest.ready h.calm.sound hs
  have hends' : Store.Ends false false _ t.store.disk t.store t'.store result' :=
    hr'.ends rfl h.moved.rest.ready h.moved.sound ht
  refine ends_agree h.calm h.moved hends hends' ?_ (h.spans.mono (Nat.le_refl n))
  exact (hviews.map fun _ _ hab => ⟨hab, h.spans.mono (Nat.le_refl n)⟩).map fun _ _ hab => hab

theorem contextOf_agree (g : Gap) (root key : ContextKey) (name : Name) (target : Target) :
    g.Agree (fun c c' => c'.key = g.key c.key) (Context.contextOf ⟨root, key⟩ name target)
      (Context.contextOf ⟨root, g.key key⟩ name (g.target target)) := by
  cases target with
  | object reference => exact .keyless ⟨rfl, fun _ => rfl⟩
  | context other => exact .done rfl

/-- Lists without repetition are the same up to the gap and the orphan when they have the same
members. -/
theorem Spans.perm {d e : Disk} {keys keys' : List ContextKey} (h : g.Spans orphan n d e)
    (hn : keys.Nodup) (hn' : keys'.Nodup)
    (hmem : ∀ key, key ∈ keys' ↔ orphan = some key ∨ ∃ k ∈ keys, g.key k = key) :
    keys'.Perm (orphan.toList ++ keys.map g.key) := by
  have hmoved : (keys.map g.key).Nodup := List.Nodup.map (fun _ _ => g.key_injective) hn
  have hdistinct : (orphan.toList ++ keys.map g.key).Nodup := by
    cases ho : orphan with
    | none => exact hmoved
    | some key =>
      refine List.nodup_cons.mpr ⟨fun hk => ?_, hmoved⟩
      obtain ⟨k, _, he⟩ := List.mem_map.mp hk
      exact (h.orphaned key ho).2 k he.symm
  refine (List.perm_ext_iff_of_nodup hn' hdistinct).mpr fun key => ?_
  rw [hmem, List.mem_append, Option.mem_toList, List.mem_map]

theorem Spans.contains_iff {d e : Disk} (h : g.Spans orphan n d e) (key : ContextKey) :
    e.contains key = true ↔ orphan = some key ∨ ∃ k, d.contains k = true ∧ g.key k = key := by
  constructor
  · intro hc
    rcases h.others key hc with ⟨k, rfl⟩ | horphan
    · exact .inr ⟨k, (h.contains k).symm.trans hc, rfl⟩
    · exact .inl horphan
  · rintro (horphan | ⟨k, hc, rfl⟩)
    · exact Disk.contains_of_load (h.orphaned key horphan).1
    · exact (h.contains k).trans hc

/-- The keys of the records are the same but for the orphan. -/
theorem Spans.keys {d e : Disk} (h : g.Spans orphan n d e) (hd : d.Sound) (he : e.Sound) :
    g.Agree (fun keys keys' => keys'.Perm (orphan.toList ++ keys.map g.key))
      (d.keys.mapError .ofStorage) (e.keys.mapError .ofStorage) := by
  obtain ⟨keys, hkeys, _⟩ := hd.keys
  obtain ⟨keys', hkeys', _⟩ := he.keys
  rw [hkeys, hkeys']
  refine .done (h.perm (hd.keys_nodup hkeys) (he.keys_nodup hkeys') fun key => ?_)
  rw [he.mem_keys hkeys', h.contains_iff]
  simp only [hd.mem_keys hkeys]

/-- Each task that is no sweep is answered the same on both sides. -/
theorem request_agree {task : Task} {answer answer' : Except Failure Answer}
    (h : g.Divides orphan n s t) (hroot : service.root.Below g.first)
    (hroom : g.Room (n + task.creates.toNat)) (hsweep : task ≠ .sweep)
    (hs : (task.request service).serve s = some (answer, s'))
    (ht : ((g.task task).request service).serve t = some (answer', t')) :
    g.Agree (g.Answers orphan) answer answer' ∧
      g.SpansUpTo orphan (n + task.creates.toNat) s'.store.disk t'.store.disk := by
  cases task with
  | call key c => exact reply_agree hs ht fun _ _ => call_agree h hroot hroom
  | handle key operation c =>
    exact reply_agree hs ht fun _ _ => handle_agree ⟨key⟩ h hroot hroom
  | resolveContext key name =>
    have hviews := (service.context key).views_resolveContext name
    have hviews' := (service.context (g.key key)).views_resolveContext name
    refine view_agree h hviews hviews' ?_ hs ht
    refine (h.spans.resolve key name).bind fun target target' _ he => ?_
    subst he
    refine (contextOf_agree g service.root key name target).mono fun c c' hc => ?_
    rw [hc]
    exact .context c.key
  | newContext =>
    obtain ⟨outcome, hserve, rfl⟩ := Request.serve_map_cases hs
    obtain ⟨outcome', hserve', rfl⟩ := Request.serve_map_cases ht
    obtain ⟨made, hcreate, rfl⟩ := Request.serve_map_cases hserve
    obtain ⟨made', hcreate', rfl⟩ := Request.serve_map_cases hserve'
    have hends : Store.Ends true false _ s.store.disk s.store s'.store made :=
      (createUnbound_spends.spends h.calm.rest.ready h.calm.sound h.spans.keyed hcreate).ends
    have hends' : Store.Ends true false _ t.store.disk t.store t'.store made' :=
      (createUnbound_spends.spends h.moved.rest.ready h.moved.sound h.spans.moved hcreate').ends
    have hmade : g.Agree (g.Both (fun k k' => k' = g.key k) orphan (n + 1)) _ _ :=
      (h.spans.create hroom).mono fun p q hpq => ⟨hpq.1, hpq.2.mono (Nat.le_refl _)⟩
    obtain ⟨hagree, hspans⟩ := ends_agree h.calm h.moved hends hends' hmade
      (h.spans.mono (Nat.le_succ n))
    have hcontext : g.Agree (fun c c' : Context => c'.key = g.key c.key)
        (made.map service.context) (made'.map service.context) :=
      hagree.map fun _ _ hk => hk
    refine ⟨hcontext.map fun c c' hc => ?_, hspans⟩
    rw [hc]
    exact .context c.key
  | contextCount =>
    obtain ⟨outcome, hserve, rfl⟩ := Request.serve_map_cases hs
    obtain ⟨outcome', hserve', rfl⟩ := Request.serve_map_cases ht
    have hkeys := (h.spans.keys h.calm.sound.disk h.moved.sound.disk).mono fun keys keys' hk =>
      (show keys'.length = keys.length + orphan.toList.length by
        rw [hk.length_eq, List.length_append, List.length_map, Nat.add_comm])
    obtain ⟨hagree, hspans⟩ := view_agree (R := fun a b => b = a + orphan.toList.length) h
      Task.views_keys Task.views_keys hkeys hserve hserve'
    refine ⟨hagree.map fun a b hab => ?_, hspans⟩
    subst hab
    exact .count a
  | sweep => exact absurd rfl hsweep

theorem handsOut_call (g : Gap) (call : Call) (reply : Reply) :
    (g.call call).handsOut (g.reply reply) = (call.handsOut reply).map g.key := by
  cases call <;> cases reply <;> rfl

theorem settles_call (g : Gap) (key : ContextKey) (call : Call) :
    (g.call call).settles (g.key key) = (call.settles key).map g.key := by
  cases call <;> rfl

theorem handsOut_task {answer answer' : Answer} (g : Gap) (task : Task)
    (h : g.Answers orphan answer answer') :
    (g.task task).handsOut answer' = (task.handsOut answer).map g.key := by
  cases h with
  | reply reply =>
    cases task with
    | call key c => exact g.handsOut_call c reply
    | handle key operation c => exact g.handsOut_call c reply
    | _ => rfl
  | _ => cases task <;> rfl

theorem settles_task (g : Gap) (task : Task) :
    (g.task task).settles = task.settles.map g.key := by
  cases task with
  | call key c => exact g.settles_call key c
  | handle key operation c => exact g.settles_call ⟨key⟩ c
  | _ => rfl

/-- The same marks are changed on both sides. -/
theorem Divides.marks {handed settled : Option ContextKey} (h : g.Divides orphan n s t)
    (hs : s.Marks s' handed settled) (ht : t.Marks t' (handed.map g.key) (settled.map g.key)) :
    (∀ key, g.key key ∈ t'.memory.unbound ↔ key ∈ s'.memory.unbound) ∧
      ∀ key ∈ t'.memory.unbound, ∃ k, key = g.key k := by
  have hmap : ∀ (o : Option ContextKey) key, o.map g.key = some (g.key key) ↔ o = some key := by
    intro o key
    cases o with
    | none => simp
    | some k => simp [g.key_inj]
  refine ⟨fun key => ?_, fun key hk => ?_⟩
  · rw [ht.unbound, hs.unbound, hmap, ne_eq, hmap, h.unbound]
  · rcases (ht.unbound key).mp hk with hhanded | ⟨_, hbefore⟩
    · obtain ⟨k, _, hk⟩ := Option.map_eq_some_iff.mp hhanded
      exact ⟨k, hk.symm⟩
    · exact h.known key hbefore

/-- The marks are changed as the answers tell, which say the same. -/
theorem Divides.marked {task : Task} {answer answer' : Except Failure Answer}
    (h : g.Divides orphan n s t) (hs : s.Marked s' answer task.handsOut task.settles)
    (ht : t.Marked t' answer' (g.task task).handsOut (g.task task).settles)
    (hagree : g.Agree (g.Answers orphan) answer answer') :
    (∀ key, g.key key ∈ t'.memory.unbound ↔ key ∈ s'.memory.unbound) ∧
      ∀ key ∈ t'.memory.unbound, ∃ k, key = g.key k := by
  cases hagree with
  | done both =>
    have ht : t.Marks t' _ _ := ht
    rw [g.handsOut_task task both, g.settles_task task] at ht
    exact h.marks hs ht
  | failed both =>
    have hs : s.Marks s' none none := hs
    exact h.marks hs ht

theorem Spans.links {d e : Disk} (h : g.Spans orphan n d e) (key : ContextKey) :
    e.links (g.key key) = (d.links key).map g.key := by
  obtain ⟨found, hfound⟩ := h.readable key
  have hload := h.load key
  rw [hfound] at hload
  cases found with
  | none =>
    rw [Disk.links_of_missing hfound, Disk.links_of_missing hload]
    rfl
  | some bindings =>
    rw [Disk.links_of_load hfound, Disk.links_of_load hload]
    exact g.contexts_bindings bindings

/-- The same contexts can be reached on both sides, and the orphan cannot. -/
theorem Spans.reaches {d e : Disk} {root : ContextKey} (h : g.Spans orphan n d e)
    (hroot : root.Below g.first) (key : ContextKey) :
    e.Reaches root key ↔ ∃ k, d.Reaches root k ∧ g.key k = key := by
  constructor
  · intro hr
    induction hr with
    | root => exact ⟨root, .root, key_below hroot⟩
    | step before link ih =>
      obtain ⟨k, hk, rfl⟩ := ih
      rw [h.links] at link
      obtain ⟨next, hnext, rfl⟩ := List.mem_map.mp link
      exact ⟨next, .step hk hnext, rfl⟩
  · rintro ⟨k, hr, rfl⟩
    induction hr with
    | root =>
      rw [key_below hroot]
      exact .root
    | step before link ih =>
      refine .step ih ?_
      rw [h.links]
      exact List.mem_map_of_mem link

theorem Spans.reaches_key {d e : Disk} {root : ContextKey} (h : g.Spans orphan n d e)
    (hroot : root.Below g.first) (key : ContextKey) :
    e.Reaches root (g.key key) ↔ d.Reaches root key := by
  rw [h.reaches hroot]
  constructor
  · rintro ⟨k, hr, he⟩
    rwa [g.key_injective he] at hr
  · exact fun hr => ⟨key, hr, rfl⟩

/-- The same is swept on both sides, and the orphan. -/
theorem Divides.garbage {removed removed' : List ContextKey} (h : g.Divides orphan n s t)
    (hroot : service.root.Below g.first) (hs : service.Collects s s' removed)
    (ht : service.Collects t t' removed') (key : ContextKey) :
    key ∈ removed' ↔ orphan = some key ∨ ∃ k ∈ removed, g.key k = key := by
  have hkey : ∀ k, g.key k ∈ removed' ↔ k ∈ removed := by
    intro k
    rw [ht.garbage, hs.garbage, h.spans.contains, h.spans.reaches_key hroot, h.unbound]
  constructor
  · intro hk
    rcases h.spans.others key ((ht.garbage key).mp hk).1 with ⟨k, rfl⟩ | horphan
    · exact .inr ⟨k, (hkey k).mp hk, rfl⟩
    · exact .inl horphan
  · rintro (horphan | ⟨k, hk, rfl⟩)
    · obtain ⟨hload, hne⟩ := h.spans.orphaned key horphan
      refine (ht.garbage key).mpr ⟨Disk.contains_of_load hload, fun hr => ?_, fun hu => ?_⟩
      · obtain ⟨k, _, he⟩ := (h.spans.reaches hroot key).mp hr
        exact hne k he.symm
      · obtain ⟨k, he⟩ := h.known key hu
        exact hne k he
    · exact (hkey k).mpr hk

end Gap

namespace Service.Collects

variable {service : Service} {s t : Server} {removed : List ContextKey} {n : Nat}
  {key : ContextKey}

theorem load (h : service.Collects s t removed) (key : ContextKey) :
    t.store.disk.load key = if key ∈ removed then .ok none else s.store.disk.load key := by
  split
  · rename_i hk
    refine Disk.load_none_iff.mpr ?_
    rw [h.records, if_pos ((mem_places key).mpr hk)]
  · rename_i hk
    exact Disk.load_congr (h.kept hk)

theorem keyed (h : service.Collects s t removed) (hkeyed : s.store.disk.Keyed n) :
    t.store.disk.Keyed n := by
  refine hkeyed.pruned h.marks fun place => ?_
  rw [h.records]
  split
  · exact .inr rfl
  · exact .inl rfl

theorem nodup (h : service.Collects s t removed) : removed.Nodup :=
  (List.pairwise_map.mp h.ordered).imp fun hab he => hab.2 (congrArg Disk.place he)

theorem calm (h : service.Collects s t removed) (hs : s.Calm) : t.Calm := by
  refine ⟨h.rest, h.sound, h.willing, ?_⟩
  obtain ⟨n, hn, hbelow⟩ := hs.numbered
  exact ⟨n, (Disk.highWaterMark_congr h.marks).trans hn, h.unbound ▸ hbelow⟩

end Service.Collects

namespace Gap

variable {g : Gap} {orphan : Option ContextKey} {n : Nat} {s t s' t' : Server}
  {service : Service} {removed removed' : List ContextKey}

/-- After a sweep both sides hold the same, without an orphan. -/
theorem Divides.swept (h : g.Divides orphan n s t) (hroot : service.root.Below g.first)
    (hs : service.Collects s s' removed) (ht : service.Collects t t' removed') :
    g.Divides none n s' t' := by
  have hgarbage := h.garbage hroot hs ht
  have hkey : ∀ k, g.key k ∈ removed' ↔ k ∈ removed := by
    intro k
    rw [hgarbage]
    constructor
    · rintro (horphan | ⟨k', hk, he⟩)
      · exact absurd rfl ((h.spans.orphaned _ horphan).2 k)
      · exact g.key_injective he ▸ hk
    · exact fun hk => .inr ⟨k, hk, rfl⟩
  refine ⟨hs.calm h.calm, ht.calm h.moved, ⟨hs.keyed h.spans.keyed, ht.keyed h.spans.moved,
    h.spans.after, ?_, fun k => ?_, fun k => ?_, fun k hc => ?_, nofun⟩, fun k => ?_, ?_⟩
  · rw [Disk.root?_congr hs.marks, Disk.root?_congr ht.marks, h.spans.root]
  · rw [hs.load]
    split
    · exact ⟨none, rfl⟩
    · exact h.spans.readable k
  · rw [hs.load, ht.load]
    simp only [hkey]
    split
    · rfl
    · exact h.spans.load k
  · obtain ⟨hc, hk⟩ := (ht.contains_iff k).mp hc
    rcases h.spans.others k hc with hmoved | horphan
    · exact .inl hmoved
    · exact absurd ((hgarbage k).mpr (.inl horphan)) hk
  · rw [hs.unbound, ht.unbound]
    exact h.unbound k
  · rw [ht.unbound]
    exact h.known

end Gap

/-- What is left of an orphan after a task: a sweep removes it. -/
def Task.spares : Task → Option ContextKey → Option ContextKey
  | sweep, _ => none
  | _, orphan => orphan

namespace Gap

variable {g : Gap} {orphan : Option ContextKey} {n m : Nat} {s t : Server} {service : Service}

theorem Room.mono (h : g.Room m) (hle : n ≤ m) : g.Room n := by
  rcases h with hwidth | hlt
  · exact .inl hwidth
  · exact .inr (by omega)

/-- Each task is answered the same on both sides, which hold the same afterwards. -/
theorem Divides.step (h : g.Divides orphan n s t) (hroot : service.root.Below g.first)
    (task : Task) (hroom : g.Room (n + task.creates.toNat)) :
    ∃ answer answer' s' t' k, (task.request service).serve s = some (answer, s') ∧
      ((g.task task).request service).serve t = some (answer', t') ∧
      g.Agree (g.Answers orphan) answer answer' ∧ k ≤ n + task.creates.toNat ∧
      g.Divides (task.spares orphan) k s' t' := by
  by_cases hsweep : task = .sweep
  · subst hsweep
    obtain ⟨removed, s', hs⟩ :=
      service.sweep_collects h.calm.rest h.calm.sound h.calm.willing
    obtain ⟨removed', t', ht⟩ :=
      service.sweep_collects h.moved.rest h.moved.sound h.moved.willing
    refine ⟨.ok (.swept removed), .ok (.swept removed'), s', t', n, ?_, ?_, .done (.swept ?_),
      Nat.le_refl n, h.swept hroot hs ht⟩
    · simp only [Task.request, Request.serve_bind, hs.served]
      rfl
    · simp only [Gap.task, Task.request, Request.serve_bind, ht.served]
      rfl
    · exact h.spans.perm hs.nodup ht.nodup (h.garbage hroot hs ht)
  · obtain ⟨answer, s', hs, hcalm, hmarks⟩ := h.calm.serves task service
    obtain ⟨answer', t', ht, hmoved, hmarks'⟩ := h.moved.serves (g.task task) service
    obtain ⟨hagree, k, hk, hspans⟩ := request_agree h hroot hroom hsweep hs ht
    obtain ⟨hunbound, hknown⟩ := h.marked hmarks hmarks' hagree
    have hspares : task.spares orphan = orphan := by
      cases task with
      | sweep => exact absurd rfl hsweep
      | _ => rfl
    rw [hspares]
    exact ⟨answer, answer', s', t', k, hs, ht, hagree, hk, hcalm, hmoved, hspans, hunbound, hknown⟩

/-- Two transcripts of tasks that say the same on both sides of a gap. -/
inductive Follows (g : Gap) : Option ContextKey → List Task → List Transcript.Entry →
    List Transcript.Entry → Prop
  | done {orphan : Option ContextKey} : g.Follows orphan [] [] []
  | next {orphan : Option ContextKey} {task : Task} {tasks : List Task}
      {entry entry' : Transcript.Entry} {entries entries' : List Transcript.Entry} {n : Nat}
      (answers : g.Agree (g.Answers orphan) entry.answer entry'.answer)
      (disks : g.Spans (task.spares orphan) n entry.disk entry'.disk)
      (later : g.Follows (task.spares orphan) tasks entries entries') :
      g.Follows orphan (task :: tasks) (entry :: entries) (entry' :: entries')

/-- Tasks come to the same on both sides as long as the numbers last. -/
theorem Divides.work (h : g.Divides orphan n s t) (hroot : service.root.Below g.first)
    (tasks : List Task) (hroom : g.Room (n + tasks.countP Task.creates)) :
    ∃ entries entries', service.work tasks s = some entries ∧
      service.work (tasks.map g.task) t = some entries' ∧
      g.Follows orphan tasks entries entries' := by
  induction tasks generalizing orphan n s t with
  | nil => exact ⟨[], [], rfl, rfl, .done⟩
  | cons task tasks ih =>
    have hcount : (task :: tasks).countP Task.creates =
        tasks.countP Task.creates + task.creates.toNat := by
      rw [List.countP_cons]
      cases task.creates <;> rfl
    rw [hcount] at hroom
    obtain ⟨answer, answer', s', t', k, hs, ht, hagree, hk, hdivides⟩ :=
      h.step hroot task (hroom.mono (by omega))
    obtain ⟨entries, entries', hws, hwt, hfollows⟩ := ih hdivides (hroom.mono (by omega))
    refine ⟨⟨answer, s'.store.disk⟩ :: entries, ⟨answer', t'.store.disk⟩ :: entries', ?_, ?_,
      .next hagree hdivides.spans hfollows⟩
    · simp only [Service.work, hs, hws, Option.map_some]
    · simp only [List.map_cons, Service.work, ht, hwt, Option.map_some]

end Gap

end Naming
