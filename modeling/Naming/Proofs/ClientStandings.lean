import Naming.Proofs.Edits
import Naming.Proofs.Locks
import Naming.Proofs.LockTakenOnce

namespace Naming

variable {n : Nat}

/-- Nothing was added on the way from one server to another: no record, no link of a record, and no
context that counts as unbound. -/
structure Server.Shrinks (s t : Server) : Prop where
  records : ∀ key, t.store.disk.contains key = true → s.store.disk.contains key = true
  links : ∀ key, t.store.disk.links key ⊆ s.store.disk.links key
  unbound : t.memory.unbound ⊆ s.memory.unbound

namespace Server.Shrinks

variable {s t u : Server} {root key : ContextKey}

theorem congr (hcontexts : t.store.disk.contexts = s.store.disk.contexts)
    (hunbound : t.memory.unbound ⊆ s.memory.unbound) : s.Shrinks t := by
  refine ⟨fun key hkey => ?_, fun key => ?_, hunbound⟩
  · rwa [Disk.contains, ← hcontexts]
  · have hlinks : t.store.disk.links key = s.store.disk.links key :=
      Disk.links_congr (by rw [hcontexts])
    rw [hlinks]
    exact List.Subset.refl _

/-- Only the record of one context has changed. -/
theorem single (key : ContextKey)
    (hothers : ∀ other, other ≠ key → t.store.disk.contexts.get? (Disk.place other) =
      s.store.disk.contexts.get? (Disk.place other))
    (hrecord : t.store.disk.contains key = true → s.store.disk.contains key = true)
    (hlinks : t.store.disk.links key ⊆ s.store.disk.links key)
    (hunbound : t.memory.unbound ⊆ s.memory.unbound) : s.Shrinks t := by
  refine ⟨fun other ho => ?_, fun other => ?_, hunbound⟩
  all_goals by_cases hother : other = key
  · exact hother ▸ hrecord (hother ▸ ho)
  · rwa [Disk.contains_eq, hothers other hother, ← Disk.contains_eq] at ho
  · exact hother ▸ hlinks
  · rw [Disk.links_congr (hothers other hother)]
    exact List.Subset.refl _

theorem refl (s : Server) : s.Shrinks s := congr rfl (List.Subset.refl _)

theorem trans (h : s.Shrinks t) (h' : t.Shrinks u) : s.Shrinks u :=
  ⟨fun key hkey => h.records key (h'.records key hkey),
    fun key _ hlink => h.links key (h'.links key hlink), fun _ hkey => h.unbound (h'.unbound hkey)⟩

/-- What is not stored stays so. -/
theorem absent (h : s.Shrinks t) (hs : s.store.disk.contains key = false) :
    t.store.disk.contains key = false := by
  rw [← Bool.not_eq_true] at hs ⊢
  exact mt (h.records key) hs

/-- What can be reached then could be reached before. -/
theorem reaches (h : s.Shrinks t) (hr : t.store.disk.Reaches root key) :
    s.store.disk.Reaches root key := by
  induction hr with
  | root => exact .root
  | step before link ih => exact .step ih (h.links _ link)

end Server.Shrinks

/-- What can be counted on while time passes: the same calls are to fail, and nothing is added in
calm times. -/
structure Server.Onward (s : Server) (calm : Prop) (t : Server) : Prop where
  fails : t.store.faults.fails = s.store.faults.fails
  calm : calm → s.Shrinks t

namespace Server.Onward

variable {calm : Prop} {s t u : Server}

theorem refl (s : Server) : s.Onward calm s := ⟨rfl, fun _ => .refl s⟩

theorem trans (h : s.Onward calm t) (h' : t.Onward calm u) : s.Onward calm u :=
  ⟨h'.fails.trans h.fails, fun hc => (h.calm hc).trans (h'.calm hc)⟩

theorem mono {calm' : Prop} (h : s.Onward calm t) (hcalm : calm' → calm) : s.Onward calm' t :=
  ⟨h.fails, fun hc => h.calm (hcalm hc)⟩

theorem willing (h : s.Onward calm t) : t.store.Willing ↔ s.store.Willing := by
  unfold Store.Willing
  rw [h.fails]

end Server.Onward

namespace Grip

/-- What a client has of the locks after a step. -/
def after (g : Grip) : (a : Action) → a.Result → Grip
  | .referLock key, id => .asks key id
  | .enterLock _ access, _ =>
    match g with
    | .asks key id => .holds key id access
    | _ => g
  | .leaveLock _ _, _ => .free
  | _, _ => g

/-- Steps that fit what a client has of the locks. -/
inductive Fits (g : Grip) : Action → Prop
  | refer (key : ContextKey) (free : g = .free) : Fits g (.referLock key)
  | enter {key : ContextKey} {id : Nat} (access : Access) (asks : g = .asks key id) :
      Fits g (.enterLock id access)
  | leave {key : ContextKey} {id : Nat} {access : Access} (holds : g = .holds key id access) :
      Fits g (.leaveLock id access)
  | releaseIdle (key : ContextKey) : Fits g (.releaseIdle key)
  | other {a : Action} (apart : a.part ≠ .locks) : Fits g a

theorem after_apart (g : Grip) {a : Action} (r : a.Result) (ha : a.part ≠ .locks) :
    g.after a r = g := by
  cases a with
  | referLock key | enterLock id access | leaveLock id access | releaseIdle key =>
    exact absurd rfl ha
  | _ => rfl

end Grip

/-- The locks are given as their clients have them also after a step of one of them. -/
theorem LockTable.Counts.step {s t : Server} {grips : Fin n → Grip} {i : Fin n} {a : Action}
    {r : a.Result} (h : s.memory.locks.Counts grips) (ha : (grips i).Fits a)
    (hp : a.perform? s = some (r, t)) :
    t.memory.locks.Counts (Function.update grips i ((grips i).after a r)) := by
  cases ha with
  | refer key free =>
    cases hp
    exact h.refer free rfl
  | enter access asks =>
    obtain ⟨locks, henter, he⟩ := Option.map_eq_some_iff.mp hp
    cases he
    simp only [Grip.after, asks]
    exact h.enter asks henter
  | leave holds =>
    cases hp
    exact h.leave holds
  | releaseIdle key =>
    cases hp
    simp only [Grip.after, Function.update_eq_self]
    exact h.releaseIdle key
  | other apart =>
    rw [Grip.after_apart _ r apart, Function.update_eq_self, (Action.performs_part hp).locks apart]
    exact h

/-- Where a client is on its way to and from having the gate closed. -/
inductive Closing where
  | before
  | inside
  | after
deriving DecidableEq

/-- What a client has of the server between two of its steps, and what it has done so far. A quiet
client is among clients none of which ever enters the gate as one of many. Memory may be trusted
about a context until the client that has it alone has changed its record. -/
structure Standing where
  quiet : Bool := false
  grip : Grip := .free
  tidy : Bool := true
  sharing : Nat := 0
  closing : Closing := .before
  made : Bool := false
  taken : List ContextKey := []

namespace Standing

/-- Where a step leaves a client. -/
def after (st : Standing) : (a : Action) → a.Result → Standing
  | .referLock key, id => { st with grip := .asks key id }
  | .enterLock _ access, _ =>
    match st.grip with
    | .asks key id => { st with grip := .holds key id access }
    | _ => st
  | .leaveLock _ _, _ => { st with grip := .free }
  | .settle _ _, _ => { st with tidy := true }
  | .save _ _, _ => { st with tidy := false }
  | .remove key, .ok true => { st with tidy := false, taken := key :: st.taken }
  | .remove _, _ => { st with tidy := false }
  | .allocate, .ok _ => { st with made := true }
  | .enterGate .shared, _ => { st with sharing := st.sharing + 1 }
  | .enterGate .exclusive, _ => { st with closing := .inside }
  | .leaveGate .shared, _ => { st with sharing := st.sharing - 1 }
  | .leaveGate .exclusive, _ => { st with closing := .after }
  | _, _ => st

theorem after_grip (st : Standing) (a : Action) (r : a.Result) :
    (st.after a r).grip = st.grip.after a r := by
  cases a with
  | enterLock id access => cases hg : st.grip <;> simp only [after, Grip.after, hg]
  | enterGate access | leaveGate access => cases access <;> rfl
  | allocate => cases r <;> rfl
  | remove key =>
    rcases r with failure | found
    · rfl
    · cases found <;> rfl
  | _ => rfl

/-- A step on the store leaves a client with the gate as it was. -/
theorem after_store (st : Standing) {a : Action} (r : a.Result) (ha : a.part = .store) :
    (st.after a r).sharing = st.sharing ∧ (st.after a r).closing = st.closing ∧
      (st.after a r).quiet = st.quiet := by
  cases a with
  | allocate => cases r <;> exact ⟨rfl, rfl, rfl⟩
  | remove key =>
    cases r with
    | error failure => exact ⟨rfl, rfl, rfl⟩
    | ok found => cases found <;> exact ⟨rfl, rfl, rfl⟩
  | referLock key | enterLock id access | leaveLock id access | releaseIdle key
  | enterGate access | leaveGate access => cases ha
  | _ => exact ⟨rfl, rfl, rfl⟩

/-- Nothing is added to the server as long as a client stands like this. -/
def Calm (st : Standing) : Prop := st.quiet = true ∨ st.closing = .inside

/-- Memory may not be trusted about this context because of this client. -/
def Spoils (st : Standing) (key : ContextKey) : Prop :=
  st.tidy = false ∧ ∃ id, st.grip = .holds key id .exclusive

/-- What a client can count on at any time. -/
structure Sees (st : Standing) (s : Server) : Prop where
  sound : s.store.disk.Sound
  calm : st.Calm → st.sharing = 0
  backed : ∀ key id access, st.grip = .holds key id access →
    (access = .exclusive → st.tidy = true) → s.Backs key

/-- What a client can count on while others take steps. -/
structure Bears (st : Standing) (s t : Server) : Prop extends s.Onward st.Calm t where
  held : ∀ key id access, st.grip = .holds key id access →
    t.store.disk.contexts.get? (Disk.place key) = s.store.disk.contexts.get? (Disk.place key)

variable {st : Standing} {s t u : Server}

theorem Bears.refl (st : Standing) (s : Server) : st.Bears s s := ⟨.refl s, fun _ _ _ _ => rfl⟩

theorem Bears.trans (h : st.Bears s t) (h' : st.Bears t u) : st.Bears s u :=
  ⟨h.toOnward.trans h'.toOnward,
    fun key id access hg => (h'.held key id access hg).trans (h.held key id access hg)⟩

/-- Who has a lock finds the record as it was. -/
theorem Bears.load (h : st.Bears s t) {key : ContextKey} {id : Nat} {access : Access}
    (hg : st.grip = .holds key id access) : t.store.disk.load key = s.store.disk.load key :=
  Disk.load_congr (h.held key id access hg)

end Standing

/-- Steps that a client may take as it stands. It changes a record only while it has the lock of the
key alone, adds something only inside the gate, closes the gate once, and removes what it is allowed
to remove. -/
inductive Action.Permitted (may : Standing → Server → ContextKey → Prop) (st : Standing)
    (s : Server) : Action → Prop
  | referLock (key : ContextKey) (free : st.grip = .free) : Permitted may st s (.referLock key)
  | enterLock {key : ContextKey} {id : Nat} (access : Access) (asks : st.grip = .asks key id) :
      Permitted may st s (.enterLock id access)
  | leaveLock {key : ContextKey} {id : Nat} {access : Access}
      (holds : st.grip = .holds key id access) (tidy : st.tidy = true) :
      Permitted may st s (.leaveLock id access)
  | releaseIdle (key : ContextKey) : Permitted may st s (.releaseIdle key)
  | resident (key : ContextKey) : Permitted may st s (.resident key)
  | settle {key : ContextKey} {id : Nat} {access : Access} (holds : st.grip = .holds key id access)
      {kept : Option BindingSet} (backed : s.store.Backs key kept) :
      Permitted may st s (.settle key kept)
  | load (key : ContextKey) : Permitted may st s (.load key)
  | save {key : ContextKey} {id : Nat} (holds : st.grip = .holds key id .exclusive)
      {bindings : BindingSet} (regular : bindings.Regular)
      (lessens : 0 < st.sharing ∨
        s.store.disk.contains key = true ∧ bindings.contexts ⊆ s.store.disk.links key) :
      Permitted may st s (.save key bindings)
  | contains (key : ContextKey) : Permitted may st s (.contains key)
  | remove {key : ContextKey} {id : Nat} (holds : st.grip = .holds key id .exclusive)
      (allowed : may st s key) : Permitted may st s (.remove key)
  | allocate (inside : 0 < st.sharing) : Permitted may st s .allocate
  | keys : Permitted may st s .keys
  | root : Permitted may st s .root
  | enterShared (free : st.grip = .free) (loud : st.quiet = false)
      (outside : st.closing ≠ .inside) : Permitted may st s (.enterGate .shared)
  | enterExclusive (free : st.grip = .free) (outside : st.sharing = 0)
      (first : st.closing = .before) : Permitted may st s (.enterGate .exclusive)
  | leaveShared (inside : 0 < st.sharing) : Permitted may st s (.leaveGate .shared)
  | leaveExclusive (inside : st.closing = .inside) : Permitted may st s (.leaveGate .exclusive)
  | markUnbound (key : ContextKey) (inside : 0 < st.sharing) : Permitted may st s (.markUnbound key)
  | clearUnbound (key : ContextKey) : Permitted may st s (.clearUnbound key)
  | isUnbound (key : ContextKey) : Permitted may st s (.isUnbound key)
  | census : Permitted may st s .census
  | note (event : Log.Event) : Permitted may st s (.note event)

/-- The gate when clients stand like this: it counts those who share it, it is closed by at most
one of them, and nobody shares it while nothing may be added. -/
structure Gate.Admits (g : Gate) (crowd : Fin n → Standing) : Prop where
  sharers : g.sharers = ∑ i, (crowd i).sharing
  closed : g.closed = true ↔ ∃ i, (crowd i).closing = .inside
  only : ∀ i j, (crowd i).closing = .inside → (crowd j).closing = .inside → j = i
  calm : ∀ i j, (crowd i).Calm → (crowd j).sharing = 0
  quiet : ∀ i j, (crowd i).quiet = (crowd j).quiet

/-- The server when its clients stand like this: locks and gate are given as they have them, nothing
on the disk is damaged, and memory may be trusted about all contexts but those that somebody has
alone and has changed. -/
structure Server.Hosts (s : Server) (crowd : Fin n → Standing) : Prop where
  sound : s.store.disk.Sound
  backed : ∀ key, (∀ i, ¬ (crowd i).Spoils key) → s.Backs key
  locks : s.memory.locks.Counts fun i => (crowd i).grip
  gate : s.memory.gate.Admits crowd

namespace Action.Permitted

variable {may : Standing → Server → ContextKey → Prop} {st : Standing} {a : Action} {s t : Server}
  {r : a.Result}

theorem fits (h : a.Permitted may st s) : st.grip.Fits a := by
  cases h with
  | referLock key free => exact .refer key free
  | enterLock access asks => exact .enter access asks
  | leaveLock holds tidy => exact .leave holds
  | releaseIdle key => exact .releaseIdle key
  | _ => exact .other nofun

/-- Nobody changes the record of a context without having it alone. -/
theorem spares (h : a.Permitted may st s) (hp : a.perform? s = some (r, t)) {key : ContextKey}
    (hkey : ∀ id, st.grip ≠ .holds key id .exclusive) :
    t.store.disk.contexts.get? (Disk.place key) = s.store.disk.contexts.get? (Disk.place key) := by
  have hother : ∀ {other id}, st.grip = .holds other id .exclusive →
      ¬ Disk.place key = Disk.place other := fun holds hplace =>
    hkey _ (Disk.place_injective hplace ▸ holds)
  cases performs_writes hp with
  | nothing same => rw [same]
  | saved saved =>
    cases h with
    | save holds => rw [Disk.get?_save saved, if_neg (hother holds)]
  | removed removed =>
    cases h with
    | remove holds => rw [removed, Disk.get?_remove, if_neg (hother holds)]

/-- Outside the gate nobody adds anything. -/
theorem shrinks (h : a.Permitted may st s) (hout : st.sharing = 0)
    (hp : a.perform? s = some (r, t)) : s.Shrinks t := by
  have hunbound : t.memory.unbound ⊆ s.memory.unbound := by
    cases h with
    | markUnbound key inside => omega
    | clearUnbound key =>
      cases hp
      exact List.filter_subset_self _
    | _ =>
      rw [(performs_part hp).unbound nofun]
      exact List.Subset.refl _
  cases performs_writes hp with
  | nothing same => exact .congr same hunbound
  | saved saved =>
    cases h with
    | save holds regular lessens =>
      obtain ⟨hkey, hlinks⟩ := lessens.resolve_left (by omega)
      rename_i key bindings id
      refine .single key (fun other hother => ?_) (fun _ => hkey) ?_ hunbound
      · rw [Disk.get?_save saved, if_neg fun hplace => hother (Disk.place_injective hplace)]
      · rwa [Disk.links_of_load (Disk.load_save saved), regular.eq_ofList]
  | removed removed =>
    rename_i key
    have habsent : t.store.disk.contains key = false := by
      rw [removed, Disk.contains_remove]
      simp
    refine .single key (fun other hother => ?_) (fun hkey => ?_) ?_ hunbound
    · rw [removed, Disk.get?_remove, if_neg fun hplace => hother (Disk.place_injective hplace)]
    · cases habsent.symm.trans hkey
    · rw [Disk.links_of_not_contains habsent]
      exact List.nil_subset _

/-- A client goes on itself as it sees others go on. -/
theorem onward (h : a.Permitted may st s) (hs : st.Sees s) (hp : a.perform? s = some (r, t)) :
    s.Onward st.Calm t :=
  ⟨(performs_onward hp).fails, fun hcalm => h.shrinks (hs.calm hcalm) hp⟩

/-- The disk stays sound. -/
theorem sound (h : a.Permitted may st s) (hp : a.perform? s = some (r, t))
    (hs : s.store.disk.Sound) : t.store.disk.Sound := by
  cases performs_writes hp with
  | nothing same => exact hs.congr same
  | saved saved =>
    cases h with
    | save holds regular => exact hs.save regular saved
  | removed removed => exact removed ▸ hs.remove _

/-- Memory is as true of a context as it was before, unless the step spoils that. -/
theorem backs (h : a.Permitted may st s) (hp : a.perform? s = some (r, t)) {key : ContextKey}
    (hs : ¬ st.Spoils key → s.Backs key) (hkey : ¬ (st.after a r).Spoils key) : t.Backs key := by
  have still : t.store.disk.contexts.get? (Disk.place key) =
      s.store.disk.contexts.get? (Disk.place key) → t.memory.resident = s.memory.resident →
      ¬ st.Spoils key → t.Backs key := by
    intro hrecord hresident hclean bindings hb
    rw [Disk.load_congr hrecord]
    exact hs hclean bindings (hresident ▸ hb)
  -- who changes a record has it alone, and spoils what memory holds of it
  have written : ∀ {other id}, st.grip = .holds other id .exclusive →
      ¬ ({ st with tidy := false } : Standing).Spoils key → key ≠ other ∧ ¬ st.Spoils key := by
    intro other id holds hclean
    have hne : key ≠ other := fun he => hclean ⟨rfl, id, he ▸ holds⟩
    refine ⟨hne, fun ⟨_, m, hm⟩ => hne ?_⟩
    rw [holds] at hm
    cases hm
    rfl
  have haway : ∀ {other id}, st.grip = .holds other id .exclusive → key ≠ other →
      ∀ m, st.grip ≠ .holds key m .exclusive := by
    intro other id holds hne m hm
    rw [holds] at hm
    cases hm
    exact hne rfl
  have hspares : (∀ id, st.grip ≠ .holds key id .exclusive) →
      t.store.disk.contexts.get? (Disk.place key) = s.store.disk.contexts.get? (Disk.place key) :=
    h.spares hp
  have hpart := performs_part hp
  cases h with
  | settle holds backed =>
    rename_i other id access kept
    obtain ⟨u, hu, hstore, _, _, hkept⟩ := performs_settle other kept s
    cases hu.symm.trans hp
    intro bindings hb
    rw [hstore]
    rcases hkept key bindings hb with ⟨rfl, hsame⟩ | ⟨hne, hbefore⟩
    · exact backed bindings hsame
    · refine hs (fun ⟨_, m, hm⟩ => hne ?_) bindings hbefore
      rw [holds] at hm
      cases hm
      rfl
  | save holds regular lessens =>
    obtain ⟨hne, hclean⟩ := written holds hkey
    exact still (hspares (haway holds hne)) (hpart.resident nofun) hclean
  | remove holds allowed =>
    have hspoils : ¬ ({ st with tidy := false } : Standing).Spoils key := by
      cases r with
      | error failure => exact hkey
      | ok found => cases found <;> exact hkey
    obtain ⟨hne, hclean⟩ := written holds hspoils
    exact still (hspares (haway holds hne)) (hpart.resident nofun) hclean
  | referLock other free =>
    refine still (hspares fun m hm => ?_) (hpart.resident nofun) fun ⟨_, m, hm⟩ => ?_
    all_goals
      rw [free] at hm
      cases hm
  | enterLock access asks =>
    refine still (hspares fun m hm => ?_) (hpart.resident nofun) fun ⟨_, m, hm⟩ => ?_
    all_goals
      rw [asks] at hm
      cases hm
  | leaveLock holds tidy =>
    refine still ?_ (hpart.resident nofun) fun hspoils => ?_
    · rw [hpart.store nofun]
    · rw [hspoils.1] at tidy
      cases tidy
  | allocate inside =>
    refine still ?_ (hpart.resident nofun) ?_
    · cases performs_writes hp with
      | nothing same => rw [same]
    · cases r <;> exact hkey
  | _ =>
    refine still ?_ (hpart.resident nofun) hkey
    cases performs_writes hp with
    | nothing same => rw [same]

end Action.Permitted

namespace Gate.Admits

variable {crowd : Fin n → Standing} {i : Fin n} {g g' : Gate} {st : Standing}

/-- One client stands in another way, and the gate changes with it. -/
theorem move (h : g.Admits crowd) (hquiet : st.quiet = (crowd i).quiet)
    (hsharers : g'.sharers + (crowd i).sharing = g.sharers + st.sharing)
    (hclosed : g'.closed = true ↔ ∃ j, (Function.update crowd i st j).closing = .inside)
    (honly : ∀ j k, (Function.update crowd i st j).closing = .inside →
      (Function.update crowd i st k).closing = .inside → k = j)
    (hcalm : ∀ j k, (Function.update crowd i st j).Calm →
      (Function.update crowd i st k).sharing = 0) : g'.Admits (Function.update crowd i st) := by
  have hsame : ∀ j, (Function.update crowd i st j).quiet = (crowd j).quiet :=
    (Function.forall_update_iff crowd fun j st => st.quiet = (crowd j).quiet).mpr
      ⟨hquiet, fun _ _ => rfl⟩
  have hsum := sum_update Standing.sharing crowd i st
  refine ⟨?_, hclosed, honly, hcalm, ?_⟩
  · rw [h.sharers] at hsharers
    omega
  · simp only [hsame]
    exact h.quiet

theorem unshared (hnone : ∀ j, (crowd j).sharing = 0) (hst : st.sharing = 0) (j : Fin n) :
    (Function.update crowd i st j).sharing = 0 :=
  (Function.forall_update_iff crowd fun _ st => st.sharing = 0).mpr ⟨hst, fun j _ => hnone j⟩ j

/-- A client that has not to do with closing the gate leaves it closed or open. -/
theorem keep (h : g.Admits crowd) (hquiet : st.quiet = (crowd i).quiet)
    (hclosing : st.closing = (crowd i).closing)
    (hsharers : g'.sharers + (crowd i).sharing = g.sharers + st.sharing)
    (hclosed : g'.closed = g.closed)
    (hloud : st.sharing = (crowd i).sharing ∨ ∀ j, ¬ (crowd j).Calm) :
    g'.Admits (Function.update crowd i st) := by
  have hsame : ∀ j, (Function.update crowd i st j).closing = (crowd j).closing ∧
      (Function.update crowd i st j).quiet = (crowd j).quiet :=
    (Function.forall_update_iff crowd fun j st => st.closing = (crowd j).closing ∧
      st.quiet = (crowd j).quiet).mpr ⟨⟨hclosing, hquiet⟩, fun _ _ => ⟨rfl, rfl⟩⟩
  refine h.move hquiet hsharers ?_ ?_ fun j k hj => ?_
  · simp only [hsame, hclosed, h.closed]
  · simp only [hsame]
    exact h.only
  · simp only [Standing.Calm, hsame] at hj
    rcases hloud with hsharing | hloud
    · exact unshared (fun k => h.calm j k hj) (hsharing.trans (h.calm j i hj)) k
    · exact absurd hj (hloud j)

theorem enter_shared (h : g.Admits crowd) (hloud : (crowd i).quiet = false)
    (he : g.enter? .shared = some g') : g'.Admits
      (Function.update crowd i { crowd i with sharing := (crowd i).sharing + 1 }) := by
  simp only [Gate.enter?] at he
  split at he
  · cases he
  · rename_i hopen
    cases he
    refine h.keep rfl rfl (by dsimp only; omega) rfl (.inr fun j hj => ?_)
    rcases hj with hquiet | hinside
    · rw [h.quiet j i, hloud] at hquiet
      cases hquiet
    · exact hopen (h.closed.mpr ⟨j, hinside⟩)

theorem leave_shared (h : g.Admits crowd) (hinside : 0 < (crowd i).sharing) :
    (g.leave .shared).Admits
      (Function.update crowd i { crowd i with sharing := (crowd i).sharing - 1 }) := by
  have hcounted := Finset.single_le_sum (f := fun j => (crowd j).sharing)
    (fun _ _ => Nat.zero_le _) (Finset.mem_univ i)
  have hsharers := h.sharers
  refine h.keep rfl rfl ?_ rfl (.inr fun j hj => ?_)
  · simp only [Gate.leave]
    omega
  · have hnone := h.calm j i hj
    omega

theorem enter_exclusive (h : g.Admits crowd) (he : g.enter? .exclusive = some g') :
    g'.Admits (Function.update crowd i { crowd i with closing := .inside }) := by
  simp only [Gate.enter?] at he
  split at he
  · cases he
  · rename_i hfree
    cases he
    simp only [Bool.or_eq_true, not_or, Bool.not_eq_true, bne_eq_false_iff_eq] at hfree
    obtain ⟨hopen, hnone⟩ := hfree
    rw [h.sharers] at hnone
    have hshares : ∀ j, (crowd j).sharing = 0 := fun j =>
      Finset.sum_eq_zero_iff.mp hnone j (Finset.mem_univ j)
    have honly : ∀ j, (Function.update crowd i { crowd i with closing := .inside } j).closing =
        .inside → j = i := by
      intro j hj
      by_contra hne
      rw [Function.update_of_ne hne] at hj
      rw [h.closed.mpr ⟨j, hj⟩] at hopen
      cases hopen
    refine h.move rfl rfl ⟨fun _ => ⟨i, by rw [Function.update_self]⟩, fun _ => rfl⟩
      (fun j k hj hk => (honly k hk).trans (honly j hj).symm) fun _ k _ => ?_
    refine unshared hshares ?_ k
    exact hshares i

theorem leave_exclusive (h : g.Admits crowd) (hinside : (crowd i).closing = .inside) :
    (g.leave .exclusive).Admits
      (Function.update crowd i { crowd i with closing := .after }) := by
  have hshares := fun j => h.calm i j (.inr hinside)
  have houtside : ∀ j, (Function.update crowd i { crowd i with closing := .after } j).closing ≠
      .inside :=
    (Function.forall_update_iff crowd fun _ st => st.closing ≠ .inside).mpr
      ⟨nofun, fun j hj hin => hj (h.only i j hinside hin)⟩
  refine h.move rfl rfl ⟨nofun, fun ⟨j, hj⟩ => absurd hj (houtside j)⟩
    (fun j k hj => absurd hj (houtside j)) fun _ k _ => ?_
  refine unshared hshares ?_ k
  exact hshares i

end Gate.Admits

namespace Server.Hosts

variable {may : Standing → Server → ContextKey → Prop} {crowd : Fin n → Standing} {i : Fin n}
  {a : Action} {s t : Server} {r : a.Result}

theorem sees (h : s.Hosts crowd) (i : Fin n) : (crowd i).Sees s := by
  refine ⟨h.sound, h.gate.calm i i, fun key id access hi htidy => h.backed key fun j hj => ?_⟩
  obtain ⟨hspoilt, m, hm⟩ := hj
  obtain ⟨rfl, rfl⟩ := h.locks.alone_exclusive hm hi
  rw [htidy rfl] at hspoilt
  cases hspoilt

theorem locks_step (h : s.Hosts crowd) (ha : a.Permitted may (crowd i) s)
    (hp : a.perform? s = some (r, t)) :
    t.memory.locks.Counts fun j => (Function.update crowd i ((crowd i).after a r) j).grip := by
  have hgrips : (fun j => (Function.update crowd i ((crowd i).after a r) j).grip) =
      Function.update (fun j => (crowd j).grip) i ((crowd i).grip.after a r) := by
    rw [← Standing.after_grip]
    exact funext fun j => Function.apply_update (fun _ => Standing.grip) crowd i _ j
  rw [hgrips]
  exact h.locks.step ha.fits hp

theorem gate_step (h : s.Hosts crowd) (ha : a.Permitted may (crowd i) s)
    (hp : a.perform? s = some (r, t)) :
    t.memory.gate.Admits (Function.update crowd i ((crowd i).after a r)) := by
  have hsame : ((crowd i).after a r).sharing = (crowd i).sharing ∧
      ((crowd i).after a r).closing = (crowd i).closing ∧
      ((crowd i).after a r).quiet = (crowd i).quiet → a.part ≠ .gate →
      t.memory.gate.Admits (Function.update crowd i ((crowd i).after a r)) := by
    rintro ⟨hsharing, hclosing, hquiet⟩ hpart
    rw [(Action.performs_part hp).gate hpart]
    exact h.gate.keep hquiet hclosing (by rw [hsharing]) rfl (.inl hsharing)
  cases ha with
  | enterShared free loud outside =>
    obtain ⟨gate, henter, he⟩ := Option.map_eq_some_iff.mp hp
    cases he
    exact h.gate.enter_shared loud henter
  | enterExclusive free outside first =>
    obtain ⟨gate, henter, he⟩ := Option.map_eq_some_iff.mp hp
    cases he
    exact h.gate.enter_exclusive henter
  | leaveShared inside =>
    cases hp
    exact h.gate.leave_shared inside
  | leaveExclusive inside =>
    cases hp
    exact h.gate.leave_exclusive inside
  | enterLock access asks =>
    refine hsame ?_ nofun
    simp only [Standing.after, asks, and_self]
  | remove | allocate => exact hsame (Standing.after_store _ r rfl) nofun
  | _ => exact hsame ⟨rfl, rfl, rfl⟩ nofun

/-- A permitted step of one client leaves a server that hosts all as they stand then. -/
theorem step (h : s.Hosts crowd) (ha : a.Permitted may (crowd i) s)
    (hp : a.perform? s = some (r, t)) :
    t.Hosts (Function.update crowd i ((crowd i).after a r)) := by
  refine ⟨ha.sound hp h.sound, fun key hclean => ?_, h.locks_step ha hp, h.gate_step ha hp⟩
  have hafter := (Function.forall_update_iff crowd fun _ st => ¬ st.Spoils key).mp hclean
  refine ha.backs hp (fun hbefore => h.backed key fun j => ?_) hafter.1
  by_cases hj : j = i
  · exact hj ▸ hbefore
  · exact hafter.2 j hj

/-- The others can count on what they are to count on. -/
theorem bears (h : s.Hosts crowd) (ha : a.Permitted may (crowd i) s)
    (hp : a.perform? s = some (r, t)) {j : Fin n} (hj : j ≠ i) : (crowd j).Bears s t := by
  refine ⟨⟨(Action.performs_onward hp).fails, fun hcalm => ha.shrinks (h.gate.calm j i hcalm) hp⟩,
    fun key id access hheld => ha.spares hp fun m hm => hj (h.locks.alone hm hheld)⟩

end Server.Hosts

end Naming
