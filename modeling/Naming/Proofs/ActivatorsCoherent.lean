import Naming.Proofs.ClientStandings

namespace Naming

variable {α β : Type} {n : Nat}

/-- What is stored under a key are these bindings. Two sets of bindings are the same when they have
the same entries in the same order. -/
def Disk.Holds (d : Disk) (key : ContextKey) (bindings : BindingSet) : Prop :=
  ∃ stored, d.load key = .ok (some stored) ∧ stored.entries = bindings.entries

/-- What an activation may start from: the stored bindings, or none that still have to be saved
when there is no record and one may be made. -/
inductive Disk.Offers (d : Disk) (key : ContextKey) (intent : Intent) : BindingSet × Bool → Prop
  | stored {bindings : BindingSet} (holds : d.Holds key bindings) :
      Offers d key intent (bindings, false)
  | fresh (missing : d.load key = .ok none) (create : intent = .create) :
      Offers d key intent (.empty, true)

/-- What can be done with an active context until it is released. -/
inductive Deed where
  | edit (change : BindingSet → Except Failure (Unit × BindingSet))
  | commit
  | remove

def Deed.use : Deed → Active.Use Unit
  | edit change => Active.edit change
  | commit => Active.commit
  | remove => Active.remove

/-- Where a client of an activator is: away, on the way to a context that is active for it, at such
a context, on the way to have done something with it, or on the way to be away again. -/
inductive Tenancy where
  | away
  | opening (key : ContextKey) (intent : Intent) (job : Job (Except Failure Active))
  | ready (c : Active)
  | working (job : Job (Except Failure Unit × Active))
  | closing (job : Job Unit)

/-- What a client does next: it begins something, or takes a step of what it has begun. -/
inductive Choice where
  | acquire (key : ContextKey) (operation : Operation) (intent : Intent)
  | use (deed : Deed)
  | release
  | go

/-- Takes one step of a job that is not done, unless it has to wait. -/
def Job.advance? (job : Job α) (s : Server) : Option (Job α × Server) :=
  match job with
  | done _ => none
  | step action next => (action.perform? s).map fun p => (next p.1, p.2)

/-- A step of what a client has begun. What is done at last makes it go on to where that leads. -/
def Tenancy.go? : Tenancy → Server → Option (Tenancy × Server)
  | opening _ _ (.done (.ok c)), s => some (ready c, s)
  | opening _ _ (.done (.error _)), s => some (away, s)
  | opening key intent job, s => (job.advance? s).map fun p => (opening key intent p.1, p.2)
  | working (.done (_, c)), s => some (ready c, s)
  | working job, s => (job.advance? s).map fun p => (working p.1, p.2)
  | closing (.done _), s => some (away, s)
  | closing job, s => (job.advance? s).map fun p => (closing p.1, p.2)
  | away, _ => none
  | ready _, _ => none

def Tenancy.choose? : Tenancy → Choice → Server → Option (Tenancy × Server)
  | away, .acquire key operation intent, s =>
    some (opening key intent (Active.acquire key operation intent).run, s)
  | ready c, .use deed, s => some (working (deed.use.run.run c), s)
  | ready c, .release, s => some (closing c.release, s)
  | tenancy, .go, s => tenancy.go? s
  | _, _, _ => none

/-- What an activation that is done with success was for, and the context it has come to. -/
def Tenancy.opened? : Tenancy → Option (ContextKey × Intent × Active)
  | opening key intent (.done (.ok c)) => some (key, intent, c)
  | _ => none

theorem Tenancy.opened?_some {tenancy : Tenancy} {key : ContextKey} {intent : Intent} {c : Active}
    (h : tenancy.opened? = some (key, intent, c)) :
    tenancy = .opening key intent (.done (.ok c)) := by
  unfold opened? at h
  split at h
  · cases h
    rfl
  · cases h

/-- A server with clients that activate contexts. Who has several contexts active at once counts as
several clients. -/
structure Activator (n : Nat) where
  server : Server
  tenants : Fin n → Tenancy

namespace Activator

def start (store : Store) (retention : Retention) : Activator n :=
  ⟨{ store := store, memory := { retention := retention } }, fun _ => .away⟩

def turn (a : Activator n) (i : Fin n) (choice : Choice) : Option (Activator n) :=
  ((a.tenants i).choose? choice a.server).map fun p => ⟨p.2, Function.update a.tenants i p.1⟩

/-- Lets the clients do what they choose in turn. Nobody may have to wait. -/
def play : List (Fin n × Choice) → Activator n → Option (Activator n)
  | [], a => some a
  | (i, choice) :: rest, a => (a.turn i choice).bind (play rest)

end Activator

/-- What a client has of the locks, and whether memory may be trusted about the context that it
has. -/
structure Footing where
  grip : Grip := .free
  tidy : Bool := true

namespace Footing

/-- Where a step leaves a client. -/
def after (f : Footing) (a : Action) (r : a.Result) : Footing where
  grip := f.grip.after a r
  tidy :=
    match a with
    | .settle _ _ => true
    | .save _ _ => false
    | .remove _ => false
    | _ => f.tidy

/-- Memory may not be trusted about this context because of this client. -/
def Spoils (f : Footing) (key : ContextKey) : Prop :=
  f.tidy = false ∧ ∃ id, f.grip = .holds key id .exclusive

/-- What a client can count on about the context that it has. -/
def Sees (f : Footing) (s : Server) : Prop :=
  ∀ key id access, f.grip = .holds key id access → (access = .exclusive → f.tidy = true) →
    ∀ bindings, s.memory.resident.get? key = some bindings → s.store.disk.Holds key bindings

/-- The record of the context that a client has stays as it was. -/
def Bears (f : Footing) (d e : Disk) : Prop :=
  ∀ key id access, f.grip = .holds key id access →
    e.contexts.get? (Disk.place key) = d.contexts.get? (Disk.place key)

variable {f : Footing} {d e e' : Disk} {key : ContextKey} {id : Nat} {access : Access}

theorem Bears.refl (f : Footing) (d : Disk) : f.Bears d d := fun _ _ _ _ => rfl

theorem Bears.trans (h : f.Bears d e) (h' : f.Bears e e') : f.Bears d e' :=
  fun key id access hg => (h' key id access hg).trans (h key id access hg)

theorem Bears.load (h : f.Bears d e) (hg : f.grip = .holds key id access) :
    e.load key = d.load key :=
  Disk.load_congr (h key id access hg)

end Footing

/-- Steps of a client of an activator. A record is changed only by who has the context alone, and
what is kept in memory when a context is given back is what its record holds. -/
inductive Action.Allowed (f : Footing) (s : Server) : Action → Prop
  | referLock (key : ContextKey) (free : f.grip = .free) : Allowed f s (.referLock key)
  | enterLock {key : ContextKey} {id : Nat} (access : Access) (asks : f.grip = .asks key id) :
      Allowed f s (.enterLock id access)
  | leaveLock {key : ContextKey} {id : Nat} {access : Access}
      (holds : f.grip = .holds key id access) (tidy : f.tidy = true) :
      Allowed f s (.leaveLock id access)
  | releaseIdle (key : ContextKey) : Allowed f s (.releaseIdle key)
  | resident (key : ContextKey) : Allowed f s (.resident key)
  | load (key : ContextKey) : Allowed f s (.load key)
  | settle {key : ContextKey} {id : Nat} {access : Access} {kept : Option BindingSet}
      (holds : f.grip = .holds key id access)
      (backed : ∀ bindings, kept = some bindings → s.store.disk.Holds key bindings) :
      Allowed f s (.settle key kept)
  | save {key : ContextKey} {id : Nat} (bindings : BindingSet)
      (holds : f.grip = .holds key id .exclusive) : Allowed f s (.save key bindings)
  | remove {key : ContextKey} {id : Nat} (holds : f.grip = .holds key id .exclusive) :
      Allowed f s (.remove key)
  | note (event : Log.Event) : Allowed f s (.note event)

/-- A server whose clients stand like this: the locks are given as they have them, and memory agrees
with the disk about all contexts but those that somebody has alone and has changed. -/
structure Server.Serves (s : Server) (crowd : Fin n → Footing) : Prop where
  locks : s.memory.locks.Counts fun i => (crowd i).grip
  agrees : ∀ key bindings, (∀ i, ¬ (crowd i).Spoils key) →
    s.memory.resident.get? key = some bindings → s.store.disk.Holds key bindings

namespace Disk

variable {d e : Disk} {key : ContextKey} {bindings : BindingSet} {intent : Intent}
  {found : BindingSet × Bool}

theorem Holds.congr (h : d.Holds key bindings) (he : e.load key = d.load key) :
    e.Holds key bindings := by
  obtain ⟨stored, hload, hentries⟩ := h
  exact ⟨stored, he.trans hload, hentries⟩

theorem Offers.congr (h : d.Offers key intent found) (he : e.load key = d.load key) :
    e.Offers key intent found := by
  cases h with
  | stored holds => exact .stored (holds.congr he)
  | fresh missing create => exact .fresh (he.trans missing) create

theorem holds_saved (h : d.save key bindings = .ok e) : e.Holds key bindings :=
  ⟨_, load_save h, rfl⟩

end Disk

namespace Action.Allowed

variable {f : Footing} {a : Action} {s t : Server} {r : a.Result} {key : ContextKey}

theorem fits (h : a.Allowed f s) : f.grip.Fits a := by
  cases h with
  | referLock key free => exact .refer key free
  | enterLock access asks => exact .enter access asks
  | leaveLock holds tidy => exact .leave holds
  | releaseIdle key => exact .releaseIdle key
  | _ => exact .other nofun

/-- Nobody changes the record of a context without having it alone. -/
theorem spares (h : a.Allowed f s) (hp : a.perform? s = some (r, t))
    (hkey : ∀ id, f.grip ≠ .holds key id .exclusive) :
    t.store.disk.contexts.get? (Disk.place key) = s.store.disk.contexts.get? (Disk.place key) := by
  have hother : ∀ {other id}, f.grip = .holds other id .exclusive →
      Disk.place key ≠ Disk.place other := by
    intro other id holds hplace
    exact hkey id (Disk.place_injective hplace ▸ holds)
  cases performs_writes hp with
  | nothing same => rw [same]
  | saved saved =>
    cases h with
    | save _ holds => rw [Disk.get?_save saved, if_neg (hother holds)]
  | removed removed =>
    cases h with
    | remove holds => rw [removed, Disk.get?_remove, if_neg (hother holds)]

/-- Memory may be trusted about a context again only after it was settled. -/
theorem unspoilt (h : a.Allowed f s) (hpart : a.part ≠ .resident)
    (hkey : ¬ (f.after a r).Spoils key) : ¬ f.Spoils key := by
  rintro ⟨hspoilt, id, hheld⟩
  cases h with
  | settle => exact hpart rfl
  | save | remove => exact hkey ⟨rfl, id, hheld⟩
  | leaveLock holds tidy =>
    rw [tidy] at hspoilt
    cases hspoilt
  | referLock other free =>
    rw [free] at hheld
    cases hheld
  | enterLock access asks =>
    rw [asks] at hheld
    cases hheld
  | _ => exact hkey ⟨hspoilt, id, hheld⟩

/-- Who changes a record spoils what memory holds of it. -/
theorem keeps_unspoilt (h : a.Allowed f s) (hp : a.perform? s = some (r, t))
    (hkey : ¬ (f.after a r).Spoils key) :
    t.store.disk.contexts.get? (Disk.place key) = s.store.disk.contexts.get? (Disk.place key) := by
  cases performs_writes hp with
  | nothing same => rw [same]
  | saved | removed => exact h.spares hp fun id hheld => hkey ⟨rfl, id, hheld⟩

/-- Memory agrees with the disk about a context as before, unless the step spoils that. -/
theorem agrees (h : a.Allowed f s) (hp : a.perform? s = some (r, t)) {bindings : BindingSet}
    (hs : ¬ f.Spoils key → ∀ bindings, s.memory.resident.get? key = some bindings →
      s.store.disk.Holds key bindings) (hkey : ¬ (f.after a r).Spoils key)
    (hb : t.memory.resident.get? key = some bindings) : t.store.disk.Holds key bindings := by
  by_cases hpart : a.part = .resident
  · cases h with
    | settle holds backed =>
      rename_i other id access kept
      obtain ⟨u, hu, hstore, _, _, hkept⟩ := performs_settle other kept s
      cases hu.symm.trans hp
      rw [hstore]
      rcases hkept key bindings hb with ⟨rfl, hsame⟩ | ⟨hne, hbefore⟩
      · exact backed bindings hsame
      · apply hs _ bindings hbefore
        rintro ⟨_, m, hm⟩
        rw [holds] at hm
        cases hm
        exact hne rfl
    | _ => cases hpart
  · rw [(performs_part hp).resident hpart] at hb
    have hbefore := hs (h.unspoilt hpart hkey) bindings hb
    exact hbefore.congr (Disk.load_congr (h.keeps_unspoilt hp hkey))

end Action.Allowed

namespace Server.Serves

variable {crowd : Fin n → Footing} {i j : Fin n} {a : Action} {s t : Server} {r : a.Result}

theorem sees (h : s.Serves crowd) (i : Fin n) : (crowd i).Sees s := by
  intro key id access hi htidy bindings hb
  apply h.agrees key bindings _ hb
  rintro j ⟨hspoilt, m, hm⟩
  obtain ⟨rfl, rfl⟩ := h.locks.alone_exclusive hm hi
  rw [htidy rfl] at hspoilt
  cases hspoilt

/-- A step of one client leaves a server that serves all as they stand then. -/
theorem step (h : s.Serves crowd) (ha : a.Allowed (crowd i) s)
    (hp : a.perform? s = some (r, t)) :
    t.Serves (Function.update crowd i ((crowd i).after a r)) := by
  constructor
  · have hgrips : (fun j => (Function.update crowd i ((crowd i).after a r) j).grip) =
        Function.update (fun j => (crowd j).grip) i ((crowd i).grip.after a r) :=
      funext fun j => Function.apply_update (fun _ => Footing.grip) crowd i _ j
    rw [hgrips]
    exact h.locks.step ha.fits hp
  · intro key bindings hclean hb
    have hafter := (Function.forall_update_iff crowd fun _ f => ¬ f.Spoils key).mp hclean
    apply ha.agrees hp _ hafter.1 hb
    intro hbefore bindings
    apply h.agrees key bindings
    intro j
    by_cases hj : j = i
    · exact hj ▸ hbefore
    · exact hafter.2 j hj

/-- The others find the records of the contexts that they have as they were. -/
theorem bears (h : s.Serves crowd) (ha : a.Allowed (crowd i) s)
    (hp : a.perform? s = some (r, t)) (hj : j ≠ i) :
    (crowd j).Bears s.store.disk t.store.disk := by
  intro key id access hheld
  apply ha.spares hp
  intro m hm
  exact hj (h.locks.alone hm hheld)

end Server.Serves

namespace Job

/-- A job that takes only allowed steps, whatever others do between them, and when it is done has
come to what is told of its answer, of where it leaves its client, and of the disk. -/
def Minds (told : α → Footing → Disk → Prop) : Job α → Footing → Disk → Prop
  | done a, f, d => ∀ e, f.Bears d e → told a f e
  | step action next, f, d => ∀ s : Server, f.Sees s → f.Bears d s.store.disk →
      action.Allowed f s ∧ ∀ r t, action.perform? s = some (r, t) →
        (next r).Minds told (f.after action r) t.store.disk

variable {told : α → Footing → Disk → Prop} {told' : β → Footing → Disk → Prop} {job : Job α}
  {f : Footing} {d e : Disk}

theorem Minds.later (h : job.Minds told f d) (hb : f.Bears d e) : job.Minds told f e := by
  cases job with
  | done a => exact fun e' he => h e' (hb.trans he)
  | step action next => exact fun s hs he => h s hs (hb.trans he)

theorem Minds.bind {next : α → Job β} (h : job.Minds told f d)
    (hnext : ∀ a f e, told a f e → (next a).Minds told' f e) :
    (job.bind next).Minds told' f d := by
  induction job generalizing f d with
  | done a => exact hnext a f d (h d (.refl f d))
  | step action rest ih =>
    intro s hs hb
    obtain ⟨hallowed, hrest⟩ := h s hs hb
    exact ⟨hallowed, fun r t hp => ih r (hrest r t hp)⟩

end Job

namespace Active

variable {f : Footing} {d : Disk} {key : ContextKey} {id : Nat} {access : Access}
  {intent : Intent}

/-- An activation finds what it may start from. -/
theorem minds_find (hg : f.grip = .holds key id access) (ht : f.tidy = true) :
    (find key intent).run.Minds
      (fun found f' e => f' = f ∧ ∀ p, found = .ok p → e.Offers key intent p) f d := by
  rw [job_find]
  intro s hs hb
  refine ⟨.resident key, fun kept t hp => ?_⟩
  cases hp
  cases hr : s.memory.resident.get? key with
  | some bindings =>
    have hholds := hs key id access hg (fun _ => ht) bindings hr
    intro e he
    refine ⟨rfl, fun p hp => ?_⟩
    cases hp
    exact .stored (hholds.congr (Footing.Bears.load he hg))
  | none =>
    intro u hu hbu
    refine ⟨.load key, fun loaded v hp => ?_⟩
    have hload : loaded = (u.store.load key).1 ∧ v.store.disk = u.store.disk := by
      cases hp
      exact ⟨rfl, u.store.load_disk key⟩
    obtain ⟨rfl, hdisk⟩ := hload
    intro e he
    refine ⟨rfl, fun p hp => ?_⟩
    have hsame : e.load key = u.store.disk.load key := hdisk ▸ Footing.Bears.load he hg
    cases hl : (u.store.load key).1 with
    | error failure =>
      rw [hl] at hp
      cases hp
    | ok found =>
      have hfound := hsame.trans (Store.load_ok hl)
      rw [hl] at hp
      cases found with
      | some bindings =>
        cases hp
        exact .stored ⟨bindings, hfound, rfl⟩
      | none =>
        cases intent with
        | existing => cases hp
        | create =>
          cases hp
          exact .fresh hfound rfl

/-- A context that is active for a client: the client has its lock, and what is neither changed nor
removed is what is stored. -/
structure Faithful (c : Active) (f : Footing) (d : Disk) : Prop where
  grip : f.grip = .holds c.key c.lock c.access
  clean : c.dirty = false → c.removed = false → d.Holds c.key c.bindings

theorem Faithful.later {c : Active} {e : Disk} (h : c.Faithful f d) (hb : f.Bears d e) :
    c.Faithful f e :=
  ⟨h.grip, fun hd hr => (h.clean hd hr).congr (hb.load h.grip)⟩

/-- What an activation comes to: nothing is left of one that fails, and one that succeeds has the
context with what it may start from. -/
def Opened (key : ContextKey) (intent : Intent) (result : Except Failure Active) (f : Footing)
    (d : Disk) : Prop :=
  match result with
  | .error _ => f = {}
  | .ok c => c.Faithful f d ∧ c.key = key ∧ c.removed = false ∧
    d.Offers key intent (c.bindings, c.dirty)

theorem job_acquire (key : ContextKey) (operation : Operation) (intent : Intent) :
    (acquire key operation intent).run = .step (.referLock key) fun id =>
      .step (.enterLock id (accessFor operation intent)) fun _ =>
        (find key intent).run.bind fun
          | .error failure => .step (.leaveLock id (accessFor operation intent)) fun _ =>
              .step (.releaseIdle key) fun _ => .done (.error failure)
          | .ok (bindings, dirty) =>
            .step (.note (event "Activated context" key operation
              [("bindings", .number bindings.size)])) fun _ =>
                .done (.ok ⟨key, operation, bindings, dirty, false, id,
                  accessFor operation intent⟩) := by
  refine congrArg (Job.step _) (funext fun id => congrArg (Job.step _) (funext fun _ => ?_))
  refine congrArg (Job.bind (find key intent).run) (funext fun found => ?_)
  cases found <;> rfl

theorem minds_acquire (key : ContextKey) (operation : Operation) (intent : Intent) (d : Disk) :
    (acquire key operation intent).run.Minds (Opened key intent) {} d := by
  rw [job_acquire]
  intro s _ _
  refine ⟨.referLock key rfl, fun id t _ => ?_⟩
  intro u _ _
  refine ⟨.enterLock _ rfl, fun _ v _ => ?_⟩
  apply (minds_find rfl rfl).bind
  rintro found f e ⟨rfl, hoffers⟩
  cases found with
  | error failure =>
    intro w _ _
    refine ⟨.leaveLock rfl rfl, fun _ w' _ => ?_⟩
    intro x _ _
    exact ⟨.releaseIdle key, fun _ _ _ _ _ => rfl⟩
  | ok p =>
    intro w _ hbw
    refine ⟨.note _, fun _ x hp => ?_⟩
    cases hp
    intro e' he'
    have hsame : e'.load key = e.load key :=
      (Footing.Bears.load he' rfl).trans (hbw.load rfl)
    have hoffered := (hoffers p rfl).congr hsame
    refine ⟨⟨rfl, fun hclean _ => ?_⟩, rfl, rfl, hoffered⟩
    cases hoffered with
    | stored holds => exact holds
    | fresh _ _ => cases hclean

theorem use_shared {c : Active} (hc : c.access = .shared) (deed : Deed) :
    ∃ failure, deed.use.run.run c = .done (.error failure, c) := by
  obtain ⟨_, _, _, _, _, _, _⟩ := c
  cases hc
  cases deed <;> exact ⟨_, rfl⟩

/-- Whatever is done with an active context, it stays faithful. -/
theorem minds_use {c : Active} (h : c.Faithful f d) (deed : Deed) :
    (deed.use.run.run c).Minds (fun p f e => p.2.Faithful f e) f d := by
  cases hc : c.access with
  | shared =>
    obtain ⟨failure, hdone⟩ := use_shared hc deed
    rw [hdone]
    exact fun e he => h.later he
  | exclusive =>
    have hgrip : f.grip = .holds c.key c.lock .exclusive := hc ▸ h.grip
    cases deed with
    | edit change =>
      rw [Deed.use, job_edit hc]
      intro e _
      cases change c.bindings <;> exact ⟨h.grip, nofun⟩
    | commit =>
      rw [Deed.use, job_commit hc]
      intro s _ hb
      refine ⟨.save c.bindings hgrip, fun r t hp e he => ?_⟩
      have hkept : ∀ d', e.load c.key = d'.load c.key → c.Faithful f d' →
          c.Faithful (f.after (.save c.key c.bindings) r) e := by
        intro d' hload hd'
        exact ⟨h.grip, fun hd hr => (hd'.clean hd hr).congr hload⟩
      have hload : e.load c.key = t.store.disk.load c.key := he.load h.grip
      rcases Action.performs_save_cases hp with ⟨rfl, hsaved⟩ | ⟨failure, rfl, hsame⟩
      · exact ⟨h.grip, fun _ _ => (Disk.holds_saved hsaved).congr hload⟩
      · exact hkept s.store.disk (hsame ▸ hload) (h.later hb)
    | remove =>
      rw [Deed.use, job_remove hc]
      intro s _ hb
      refine ⟨.remove hgrip, fun r t hp e he => ?_⟩
      have hload : e.load c.key = t.store.disk.load c.key := he.load h.grip
      rcases Action.performs_remove_cases hp with ⟨rfl, _⟩ | ⟨failure, rfl, hsame, _⟩
      · exact ⟨h.grip, nofun⟩
      · have hbefore := h.later hb
        exact ⟨h.grip, fun hd hr => (hbefore.clean hd hr).congr (hsame ▸ hload)⟩

theorem minds_release {c : Active} (h : c.Faithful f d) :
    c.release.Minds (fun _ f _ => f = {}) f d := by
  intro s _ hb
  refine ⟨.settle h.grip fun bindings hkept => ?_, fun _ t _ => ?_⟩
  · have hhand := h.later hb
    cases hd : c.dirty <;> cases hr : c.removed <;> rw [hd, hr] at hkept <;> cases hkept
    exact hhand.clean hd hr
  · intro u _ _
    refine ⟨.note _, fun _ v _ => ?_⟩
    intro w _ _
    refine ⟨.leaveLock h.grip rfl, fun _ x _ => ?_⟩
    intro y _ _
    exact ⟨.releaseIdle c.key, fun _ _ _ _ _ => rfl⟩

end Active

namespace Tenancy

/-- Where a client stands, told by where it is. -/
def Stands (f : Footing) (d : Disk) : Tenancy → Prop
  | away => f = {}
  | opening key intent job => job.Minds (Active.Opened key intent) f d
  | ready c => c.Faithful f d
  | working job => job.Minds (fun p f e => p.2.Faithful f e) f d
  | closing job => job.Minds (fun _ f _ => f = {}) f d

variable {tenancy tenancy' : Tenancy} {f : Footing} {d e : Disk} {s t : Server}

theorem Stands.later (h : tenancy.Stands f d) (hb : f.Bears d e) : tenancy.Stands f e := by
  cases tenancy with
  | away => exact h
  | ready c => exact Active.Faithful.later h hb
  | opening | working | closing => exact Job.Minds.later h hb

/-- A client begins something or goes on without touching the server, or takes a step that is
allowed, and stands as it should then. -/
inductive Moves (f : Footing) (s : Server) (tenancy : Tenancy) (t : Server) : Prop
  | still (same : t = s) (stands : tenancy.Stands f s.store.disk)
  | step {a : Action} {r : a.Result} (allowed : a.Allowed f s)
      (performs : a.perform? s = some (r, t))
      (stands : tenancy.Stands (f.after a r) t.store.disk)

/-- A step of a job that minds. -/
theorem moves_advance {job job' : Job α} {told : α → Footing → Disk → Prop}
    {tenant : Job α → Tenancy} (h : job.Minds told f s.store.disk) (hs : f.Sees s)
    (htenant : ∀ job f d, job.Minds told f d → (tenant job).Stands f d)
    (ha : job.advance? s = some (job', t)) : Moves f s (tenant job') t := by
  cases job with
  | done a => cases ha
  | step action next =>
    obtain ⟨⟨r, u⟩, hp, he⟩ := Option.map_eq_some_iff.mp ha
    cases he
    obtain ⟨hallowed, hnext⟩ := h s hs (.refl f _)
    exact .step hallowed hp (htenant _ _ _ (hnext r u hp))

theorem moves_go (h : tenancy.Stands f s.store.disk) (hs : f.Sees s)
    (hg : tenancy.go? s = some (tenancy', t)) : Moves f s tenancy' t := by
  cases tenancy with
  | away | ready c => cases hg
  | opening key intent job =>
    cases job with
    | done result =>
      have htold := h s.store.disk (.refl f _)
      cases result <;> cases hg
      · exact .still rfl htold
      · exact .still rfl htold.1
    | step action next =>
      obtain ⟨⟨job', u⟩, ha, he⟩ := Option.map_eq_some_iff.mp hg
      cases he
      exact moves_advance h hs (fun _ _ _ hjob => hjob) ha
  | working job =>
    cases job with
    | done p =>
      cases hg
      exact .still rfl (h s.store.disk (.refl f _))
    | step action next =>
      obtain ⟨⟨job', u⟩, ha, he⟩ := Option.map_eq_some_iff.mp hg
      cases he
      exact moves_advance h hs (fun _ _ _ hjob => hjob) ha
  | closing job =>
    cases job with
    | done a =>
      cases hg
      exact .still rfl (h s.store.disk (.refl f _))
    | step action next =>
      obtain ⟨⟨job', u⟩, ha, he⟩ := Option.map_eq_some_iff.mp hg
      cases he
      exact moves_advance h hs (fun _ _ _ hjob => hjob) ha

theorem moves_choose {choice : Choice} (h : tenancy.Stands f s.store.disk) (hs : f.Sees s)
    (hc : tenancy.choose? choice s = some (tenancy', t)) : Moves f s tenancy' t := by
  cases choice with
  | go =>
    have hgo : tenancy.go? s = some (tenancy', t) := by
      cases tenancy <;> exact hc
    exact moves_go h hs hgo
  | acquire key operation intent =>
    cases tenancy <;> cases hc
    have hfree : f = {} := h
    exact .still rfl (hfree ▸ Active.minds_acquire key operation intent s.store.disk)
  | use deed =>
    cases tenancy <;> cases hc
    exact .still rfl (Active.minds_use h deed)
  | release =>
    cases tenancy <;> cases hc
    exact .still rfl (Active.minds_release h)

end Tenancy

namespace Activator

variable {a a' : Activator n} {crowd : Fin n → Footing} {i : Fin n} {choice : Choice}

/-- What holds of an activator at any time: its server serves its clients, and each of them stands
as it should. -/
structure Sensible (a : Activator n) (crowd : Fin n → Footing) : Prop where
  serves : a.server.Serves crowd
  stands : ∀ i, (a.tenants i).Stands (crowd i) a.server.store.disk

theorem sensible_start (store : Store) (retention : Retention) :
    (start store retention : Activator n).Sensible fun _ => {} :=
  ⟨⟨.idle rfl, nofun⟩, fun _ => rfl⟩

/-- What one turn preserves. -/
theorem Sensible.turn (h : a.Sensible crowd) (ht : a.turn i choice = some a') :
    ∃ crowd', a'.Sensible crowd' := by
  obtain ⟨⟨tenancy, t⟩, hc, he⟩ := Option.map_eq_some_iff.mp ht
  cases he
  cases Tenancy.moves_choose (h.stands i) (h.serves.sees i) hc with
  | still same stands =>
    subst same
    have hstands := (Function.forall_update_iff a.tenants fun j tenancy =>
      tenancy.Stands (crowd j) a.server.store.disk).mpr ⟨stands, fun j _ => h.stands j⟩
    exact ⟨crowd, h.serves, hstands⟩
  | step allowed performs stands =>
    refine ⟨_, h.serves.step allowed performs, fun j => ?_⟩
    dsimp only
    by_cases hj : j = i
    · subst hj
      rwa [Function.update_self, Function.update_self]
    · rw [Function.update_of_ne hj, Function.update_of_ne hj]
      exact (h.stands j).later (h.serves.bears allowed performs hj)

/-- What all turns preserve. -/
theorem Sensible.play {schedule : List (Fin n × Choice)} (h : a.Sensible crowd)
    (hp : play schedule a = some a') : ∃ crowd', a'.Sensible crowd' := by
  induction schedule generalizing a crowd with
  | nil =>
    cases hp
    exact ⟨crowd, h⟩
  | cons entry rest ih =>
    obtain ⟨between, ht, hrest⟩ := Option.bind_eq_some_iff.mp hp
    obtain ⟨crowd', hbetween⟩ := h.turn ht
    exact ih hbetween hrest

/-- Memory and disk agree whatever the clients of an activator do, as far as the locks let them, and
only who has a context alone changes its record. -/
theorem coherent {store : Store} {retention : Retention} {schedule : List (Fin n × Choice)}
    {a : Activator n} (h : play schedule (start store retention) = some a) :
    (∀ key bindings, a.server.memory.locks.isFree key .shared = true →
      a.server.memory.resident.get? key = some bindings →
      a.server.store.disk.Holds key bindings) ∧
    (∀ i c, a.tenants i = .ready c → c.dirty = false → c.removed = false →
      a.server.store.disk.Holds c.key c.bindings) ∧
    (∀ i key intent c, a.tenants i = .opening key intent (.done (.ok c)) → c.key = key ∧
      c.removed = false ∧ a.server.store.disk.Offers key intent (c.bindings, c.dirty)) ∧
    ∀ i choice a' key, a.turn i choice = some a' →
      a.server.memory.locks.isFree key .shared = true →
      a'.server.store.disk.contexts.get? (Disk.place key) =
        a.server.store.disk.contexts.get? (Disk.place key) := by
  obtain ⟨crowd, hsensible⟩ := (sensible_start store retention).play h
  refine ⟨fun key bindings hfree hb => ?_, fun i c hi hd hr => ?_, fun i key intent c hi => ?_,
    fun i choice a' key ht hfree => ?_⟩
  · apply hsensible.serves.agrees key bindings _ hb
    rintro i ⟨_, id, hheld⟩
    exact hsensible.serves.locks.not_alone hfree i id hheld
  · have hstands := hsensible.stands i
    rw [hi] at hstands
    exact hstands.clean hd hr
  · have hstands := hsensible.stands i
    rw [hi] at hstands
    exact (hstands a.server.store.disk (.refl _ _)).2
  · obtain ⟨⟨tenancy, t⟩, hc, he⟩ := Option.map_eq_some_iff.mp ht
    cases he
    cases Tenancy.moves_choose (hsensible.stands i) (hsensible.serves.sees i) hc with
    | still same stands => rw [same]
    | step allowed performs stands =>
      exact allowed.spares performs fun id => hsensible.serves.locks.not_alone hfree i id

/-- A client makes a context and saves it, and gives it back with a change that was not saved, while
another client waits for it. -/
theorem coherent_uncommitted : ∃ (a : Activator 2) (c : Active),
    play [[(0, .acquire ⟨"NC0"⟩ .newContext .create)], .replicate 6 (0, .go),
      [(0, .use .commit), (0, .go), (0, .go),
        (0, .use (.edit fun s => (s.insert ⟨.ofId "a", .object "1"⟩).map ((), ·))), (0, .go),
        (1, .acquire ⟨"NC0"⟩ .resolve .existing), (1, .go), (0, .release)],
      .replicate 5 (0, .go), .replicate 4 (1, .go)].flatten (start {} (.cache 4)) = some a ∧
    a.tenants 1 = .opening ⟨"NC0"⟩ .existing (.done (.ok c)) ∧ c.bindings.entries = [] ∧
    a.server.store.disk.Offers ⟨"NC0"⟩ .existing (c.bindings, c.dirty) := by
  have hrun : (play [[(0, .acquire ⟨"NC0"⟩ .newContext .create)], .replicate 6 (0, .go),
      [(0, .use .commit), (0, .go), (0, .go),
        (0, .use (.edit fun s => (s.insert ⟨.ofId "a", .object "1"⟩).map ((), ·))), (0, .go),
        (1, .acquire ⟨"NC0"⟩ .resolve .existing), (1, .go), (0, .release)],
      .replicate 5 (0, .go), .replicate 4 (1, .go)].flatten
        (start {} (.cache 4) : Activator 2)).any (fun a => (a.tenants 1).opened?.any fun opened =>
          opened.1 = ⟨"NC0"⟩ ∧ opened.2.1 = .existing ∧ opened.2.2.bindings.entries.isEmpty) =
          true := by
    decide +kernel
  obtain ⟨a, hplay, hseen⟩ := (Option.any_eq_true _ _).mp hrun
  obtain ⟨⟨key, intent, c⟩, hopened, hseen⟩ := (Option.any_eq_true _ _).mp hseen
  obtain ⟨rfl, rfl, hempty⟩ := of_decide_eq_true hseen
  have htenant := Tenancy.opened?_some hopened
  obtain ⟨_, _, hoffered, _⟩ := coherent hplay
  exact ⟨a, c, hplay, htenant, List.isEmpty_iff.mp hempty, (hoffered 1 _ _ c htenant).2.2⟩

end Activator

end Naming
