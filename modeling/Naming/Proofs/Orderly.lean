import Naming.Proofs.Coherence

namespace Naming

variable {α β : Type}

namespace Action

/-- Steps that depend neither on locks nor on what is kept in memory. Those that change which
contexts count as unbound are told apart. -/
inductive Steady : Bool → Action → Prop
  | contains {marks : Bool} (key : ContextKey) : Steady marks (.contains key)
  | allocate {marks : Bool} : Steady marks .allocate
  | keys {marks : Bool} : Steady marks .keys
  | root {marks : Bool} : Steady marks .root
  | setRoot {marks : Bool} (key : ContextKey) : Steady marks (.setRoot key)
  | markUnbound (key : ContextKey) : Steady true (.markUnbound key)
  | clearUnbound (key : ContextKey) : Steady true (.clearUnbound key)
  | isUnbound {marks : Bool} (key : ContextKey) : Steady marks (.isUnbound key)
  | note {marks : Bool} (event : Log.Event) : Steady marks (.note event)

/-- What a steady step leaves alone. -/
structure Settled (marks : Bool) (s t : Server) : Prop where
  locks : t.memory.locks = s.memory.locks
  gate : t.memory.gate = s.memory.gate
  resident : t.memory.resident = s.memory.resident
  contexts : t.store.disk.contexts = s.store.disk.contexts
  unbound : marks = false → t.memory.unbound = s.memory.unbound

theorem Settled.kept {marks : Bool} {s t : Server} (h : Settled marks s t)
    (hi : s.memory.locks.Idle) : s.Kept t := by
  refine ⟨h.locks ▸ hi, h.gate, fun hs => ⟨hs.disk.congr h.contexts, fun key bindings hr => ?_⟩⟩
  have hl : t.store.disk.load key = s.store.disk.load key :=
    Disk.load_congr (by rw [h.contexts])
  rw [hl]
  exact hs.resident key bindings (h.resident ▸ hr)

theorem Steady.performs {marks : Bool} {a : Action} (h : a.Steady marks) (s : Server) :
    ∃ r t, a.perform? s = some (r, t) ∧ Settled marks s t := by
  cases h with
  | contains key =>
    exact ⟨_, _, rfl, rfl, rfl, rfl, congrArg Disk.contexts (s.store.contains_disk key),
      fun _ => rfl⟩
  | allocate =>
    simp only [perform?]
    rcases s.store.allocate_cases with ⟨failure, store, hc, hd⟩ | ⟨key, store, hc, hd⟩
    · rw [hc]
      exact ⟨_, _, rfl, rfl, rfl, rfl, congrArg Disk.contexts hd, fun _ => rfl⟩
    · obtain ⟨_, _, _, _, hcontexts⟩ := Disk.allocate_ok hd
      rw [hc]
      exact ⟨_, _, rfl, rfl, rfl, rfl, hcontexts, fun _ => rfl⟩
  | keys =>
    exact ⟨_, _, rfl, rfl, rfl, rfl, congrArg Disk.contexts s.store.keys_disk, fun _ => rfl⟩
  | root => exact ⟨_, _, rfl, rfl, rfl, rfl, rfl, fun _ => rfl⟩
  | setRoot key =>
    simp only [perform?]
    rcases s.store.setRoot_cases key with ⟨failure, store, hc, hd⟩ | ⟨store, hc, hd⟩
    · rw [hc]
      exact ⟨_, _, rfl, rfl, rfl, rfl, congrArg Disk.contexts hd, fun _ => rfl⟩
    · have hcontexts := congrArg Disk.contexts hd
      rw [hc]
      exact ⟨_, _, rfl, rfl, rfl, rfl, hcontexts, fun _ => rfl⟩
  | markUnbound key => exact ⟨_, _, rfl, rfl, rfl, rfl, rfl, fun h => Bool.noConfusion h⟩
  | clearUnbound key => exact ⟨_, _, rfl, rfl, rfl, rfl, rfl, fun h => Bool.noConfusion h⟩
  | isUnbound key => exact ⟨_, _, rfl, rfl, rfl, rfl, rfl, fun _ => rfl⟩
  | note event => exact ⟨_, _, rfl, rfl, rfl, rfl, rfl, fun _ => rfl⟩

/-- A steady step does the same on servers that are alike. -/
theorem Steady.alike {marks : Bool} {a : Action} (h : a.Steady marks) {s t : Server}
    (hst : s.Alike t) : ∃ r s' t', a.perform? s = some (r, s') ∧
      a.perform? t = some (r, t') ∧ s'.Alike t' := by
  obtain ⟨hstore, hlocks, hgate, hunbound⟩ := hst
  cases h with
  | contains key =>
    obtain ⟨result, u, v, hu, hv, halike⟩ := hstore.contains key
    simp only [perform?, hu, hv]
    exact ⟨_, _, _, rfl, rfl, halike, hlocks, hgate, hunbound⟩
  | allocate =>
    obtain ⟨result, u, v, hu, hv, halike⟩ := hstore.allocate
    simp only [perform?, hu, hv]
    cases result <;> exact ⟨_, _, _, rfl, rfl, halike, hlocks, hgate, hunbound⟩
  | keys =>
    obtain ⟨result, u, v, hu, hv, halike⟩ := hstore.keys
    simp only [perform?, hu, hv]
    exact ⟨_, _, _, rfl, rfl, halike, hlocks, hgate, hunbound⟩
  | root =>
    simp only [perform?, hstore.disk]
    exact ⟨_, _, _, rfl, rfl, hstore, hlocks, hgate, hunbound⟩
  | setRoot key =>
    obtain ⟨result, u, v, hu, hv, halike⟩ := hstore.setRoot key
    simp only [perform?, hu, hv]
    exact ⟨_, _, _, rfl, rfl, halike, hlocks, hgate, hunbound⟩
  | markUnbound key =>
    refine ⟨_, _, _, rfl, rfl, hstore, hlocks, hgate, ?_⟩
    simp only [hunbound]
  | clearUnbound key =>
    refine ⟨_, _, _, rfl, rfl, hstore, hlocks, hgate, ?_⟩
    simp only [hunbound]
  | isUnbound key =>
    simp only [perform?, hunbound]
    exact ⟨_, _, _, rfl, rfl, hstore, hlocks, hgate, hunbound⟩
  | note event => exact ⟨_, _, _, rfl, rfl, hstore, hlocks, hgate, hunbound⟩

/-- No step changes which calls fail or forgets one that was made. -/
theorem performs_onward {a : Action} {s t : Server} {r : a.Result}
    (h : a.perform? s = some (r, t)) : s.store.Onward t.store := by
  cases a with
  | load | contains | remove | keys | setRoot =>
    simp only [perform?, Option.some.injEq, Prod.mk.injEq] at h
    exact h.2 ▸ s.store.call_onward _ _
  | save key bindings =>
    simp only [perform?] at h
    split at h
    all_goals
      cases h
      exact s.store.call_onward _ _
  | allocate =>
    simp only [perform?] at h
    split at h
    all_goals
      cases h
      exact s.store.call_onward _ _
  | enterLock id access =>
    obtain ⟨locks, _, he⟩ := Option.map_eq_some_iff.mp h
    cases he
    exact .refl _
  | enterGate access =>
    obtain ⟨gate, _, he⟩ := Option.map_eq_some_iff.mp h
    cases he
    exact .refl _
  | _ =>
    cases h
    exact .refl _

end Action

theorem Job.run_onward {t : Job α} {s s' : Server} {a : α} (h : t.run s = some (a, s')) :
    s.store.Onward s'.store :=
  t.all_steps.keeps (I := fun s s' => s.store.Onward s'.store)
    (fun s => .refl s.store) (fun _ _ _ h h' => h.trans h')
    (fun _ _ _ _ _ hp => Action.performs_onward hp) h

theorem Job.run_fails {t : Job α} {s s' : Server} {a : α} (h : t.run s = some (a, s')) :
    s'.store.faults.fails = s.store.faults.fails :=
  (Job.run_onward h).fails

/-- Requests made of steady steps and of activations with proper uses. Those that enter the gate,
shared, are told apart, as they wait while the gate is closed; and so are those that change which
contexts count as unbound. -/
inductive Orderly (marks : Bool) : Bool → {α : Type} → Request α → Prop
  | steps {gates : Bool} {α : Type} {r : Request α} (steady : Job.All (Action.Steady marks) r) :
      Orderly marks gates r
  | bind {gates : Bool} {α β : Type} {r : Request α} {f : α → Request β}
      (first : Orderly marks gates r) (next : ∀ a, Orderly marks gates (f a)) :
      Orderly marks gates (r >>= f)
  | attempt {gates : Bool} {α : Type} {r : Request α} (tried : Orderly marks gates r) :
      Orderly marks gates r.attempt
  | gated {α : Type} {r : Request α} (inside : Orderly marks true r) :
      Orderly marks true (r.gated .shared)
  | during {gates : Bool} {α : Type} {use : Active.Use α} (key : ContextKey)
      (operation : Operation) (intent : Intent) (proper : Active.Proper use) :
      Orderly marks gates (Active.during key operation intent use)

namespace Server

/-- The server with one more request inside the gate. -/
def entered (s : Server) : Server :=
  { s with memory.gate.sharers := s.memory.gate.sharers + 1 }

/-- The server once a request has left the gate. -/
def left (s : Server) : Server := { s with memory.gate := s.memory.gate.leave .shared }

end Server

namespace Request

theorem serve_attempt (r : Request α) (s : Server) :
    r.attempt.serve s = (r.serve s).map fun p => (.ok p.1, p.2) := by
  refine (Job.run_bind r (fun a => pure (Except.ok a)) s).trans ?_
  unfold serve
  cases Job.run r s <;> rfl

/-- What follows an attempt gets its outcome, also when that is a failure. -/
theorem serve_attempt_cases {r : Request α} {f : Except Failure α → Request β} {s t : Server}
    {result : Except Failure β} (h : (r.attempt >>= f).serve s = some (result, t)) :
    ∃ outcome u, r.serve s = some (outcome, u) ∧ (f outcome).serve u = some (result, t) := by
  rw [serve_bind, serve_attempt] at h
  cases hr : r.serve s with
  | none =>
    rw [hr] at h
    cases h
  | some p =>
    rw [hr] at h
    exact ⟨p.1, p.2, rfl, h⟩

/-- Inside an open gate one more request is counted, until it is done. -/
theorem serve_gated_shared (r : Request α) {s : Server} (h : s.memory.gate.closed = false) :
    (r.gated .shared).serve s = (r.serve s.entered).map fun p => (p.1, p.2.left) := by
  have he : (Job.act (.enterGate .shared)).run s = some ((), s.entered) := by
    rw [Job.run_act]
    simp [Action.perform?, Gate.enter?, h, Server.entered]
  refine (Job.run_bind_some he).trans ((Job.run_bind r _ _).trans ?_)
  unfold serve
  cases Job.run r _ <;> rfl

theorem serve_gated_cases {r : Request α} {s t : Server} {result : Except Failure α}
    (hg : s.memory.gate.closed = false) (h : (r.gated .shared).serve s = some (result, t)) :
    ∃ u, r.serve s.entered = some (result, u) ∧ t = u.left := by
  rw [serve_gated_shared r hg] at h
  obtain ⟨⟨_, u⟩, hr, he⟩ := Option.map_eq_some_iff.mp h
  cases he
  exact ⟨u, hr, rfl⟩

end Request

namespace Server

theorem Kept.trans {s t u : Server} (h : s.Kept t) (h' : t.Kept u) : s.Kept u :=
  ⟨h'.locks, h'.gate.trans h.gate, h'.sound ∘ h.sound⟩

end Server

namespace Orderly

variable {marks gates : Bool} {r : Request α}

theorem run_steady {r : Job α} (h : r.All (Action.Steady marks)) {s : Server}
    (hi : s.memory.locks.Idle) : ∃ result t, r.run s = some (result, t) ∧ s.Kept t ∧
      (marks = false → t.memory.unbound = s.memory.unbound) := by
  induction r generalizing s with
  | done a => exact ⟨a, s, rfl, ⟨hi, rfl, id⟩, fun _ => rfl⟩
  | step action next ih =>
    obtain ⟨answer, t, hp, hsettled⟩ := h.1.performs s
    have hk := hsettled.kept hi
    obtain ⟨result, u, hr, hk', hu⟩ := ih answer (h.2 answer) hk.locks
    refine ⟨result, u, ?_, hk.trans hk', fun hm => (hu hm).trans (hsettled.unbound hm)⟩
    simp only [Job.run, hp, hr]

/-- An orderly request with the server for itself ends, whatever calls of the store fail. -/
theorem serves (h : Orderly marks gates r) {s : Server} (hi : s.memory.locks.Idle)
    (hg : gates = true → s.memory.gate.closed = false) :
    ∃ result t, r.serve s = some (result, t) ∧ s.Kept t ∧
      (marks = false → t.memory.unbound = s.memory.unbound) := by
  induction h generalizing s with
  | steps steady => exact run_steady steady hi
  | bind first next ihFirst ihNext =>
    obtain ⟨result, t, hr, hk, hu⟩ := ihFirst hi hg
    rw [Request.serve_bind, hr]
    cases result with
    | error failure => exact ⟨_, _, rfl, hk, hu⟩
    | ok a =>
      obtain ⟨result, u, hr', hk', hu'⟩ := ihNext a hk.locks (hk.gate ▸ hg)
      exact ⟨result, u, hr', hk.trans hk', fun hm => (hu' hm).trans (hu hm)⟩
  | attempt tried ih =>
    obtain ⟨result, t, hr, hk, hu⟩ := ih hi hg
    rw [Request.serve_attempt, hr]
    exact ⟨_, _, rfl, hk, hu⟩
  | gated inside ih =>
    obtain ⟨result, t, hr, hk, hu⟩ := ih (s := s.entered) hi hg
    rw [Request.serve_gated_shared _ (hg rfl), hr]
    refine ⟨_, _, rfl, ⟨hk.locks, ?_, fun hs => ?_⟩, hu⟩
    · simp only [Server.left, hk.gate, Server.entered, Gate.leave, Nat.add_sub_cancel]
    · have ht := hk.sound ⟨hs.disk, hs.resident⟩
      exact ⟨ht.disk, ht.resident⟩
  | during key operation intent proper =>
    obtain ⟨result, t, hr, hk, hu⟩ := Active.during_serves proper key operation intent hi
    exact ⟨result, t, hr, hk, fun _ => hu⟩

/-- Whatever an orderly request comes to, it has kept what it is to keep. -/
theorem kept (h : Orderly marks gates r) {s t : Server} (hi : s.memory.locks.Idle)
    (hg : gates = true → s.memory.gate.closed = false) {result : Except Failure α}
    (hr : r.serve s = some (result, t)) : s.Kept t := by
  obtain ⟨_, _, hq, hk, _⟩ := h.serves hi hg
  rw [hr] at hq
  cases hq
  exact hk

/-- A request without marks changes nothing about which contexts count as unbound. -/
theorem unbound (h : Orderly false gates r) {s t : Server} (hi : s.memory.locks.Idle)
    (hg : gates = true → s.memory.gate.closed = false) {result : Except Failure α}
    (hr : r.serve s = some (result, t)) : t.memory.unbound = s.memory.unbound := by
  obtain ⟨_, _, hq, _, hu⟩ := h.serves hi hg
  rw [hr] at hq
  cases hq
  exact hu rfl

end Orderly

/-- Two sound servers at rest that differ in nothing but what they keep in memory, on a disk whose
records can always be loaded. -/
structure Server.Twins (s t : Server) : Prop where
  alike : s.Alike t
  idle : s.memory.locks.Idle
  left : s.Sound
  right : t.Sound
  spared : s.store.Spares .load

/-- After the same orderly request twins are twins again if they are alike. -/
theorem Server.Twins.after {s s' t t' : Server} (h : s.Twins t) (halike : s'.Alike t')
    (hs : s.Kept s') (ht : t.Kept t') (hf : s'.store.faults.fails = s.store.faults.fails) :
    s'.Twins t' :=
  ⟨halike, hs.locks, hs.sound h.left, ht.sound h.right, fun n => hf ▸ h.spared n⟩

namespace Orderly

variable {marks gates : Bool} {r : Request α} {s t : Server}

theorem run_steady_alike {r : Job α} (h : r.All (Action.Steady marks)) (hst : s.Alike t) :
    ∃ result s' t', r.run s = some (result, s') ∧ r.run t = some (result, t') ∧ s'.Alike t' := by
  induction r generalizing s t with
  | done a => exact ⟨a, s, t, rfl, rfl, hst⟩
  | step action next ih =>
    obtain ⟨answer, s', t', hp, hq, hst'⟩ := h.1.alike hst
    simp only [Job.run, hp, hq]
    exact ih answer (h.2 answer) hst'

/-- What is kept in memory makes no difference to an orderly request. -/
theorem alike (h : Orderly marks gates r) (hst : s.Twins t)
    (hg : gates = true → s.memory.gate.closed = false) :
    ∃ result s' t', r.serve s = some (result, s') ∧ r.serve t = some (result, t') ∧
      s'.Alike t' := by
  induction h generalizing s t with
  | steps steady => exact run_steady_alike steady hst.alike
  | bind first next ihFirst ihNext =>
    obtain ⟨result, s', t', hr, hq, halike⟩ := ihFirst hst hg
    rw [Request.serve_bind, Request.serve_bind, hr, hq]
    cases result with
    | error failure => exact ⟨_, _, _, rfl, rfl, halike⟩
    | ok a =>
      have hks := first.kept hst.idle hg hr
      have hkt := first.kept (hst.alike.locks ▸ hst.idle) (hst.alike.gate ▸ hg) hq
      exact ihNext a (hst.after halike hks hkt (Job.run_fails hr)) (hks.gate ▸ hg)
  | attempt tried ih =>
    obtain ⟨result, s', t', hr, hq, halike⟩ := ih hst hg
    rw [Request.serve_attempt, Request.serve_attempt, hr, hq]
    exact ⟨_, _, _, rfl, rfl, halike⟩
  | gated inside ih =>
    have hgt : t.memory.gate.closed = false := hst.alike.gate ▸ hg rfl
    have hentered : s.entered.Twins t.entered := by
      refine ⟨⟨hst.alike.store, hst.alike.locks, ?_, hst.alike.unbound⟩, hst.idle,
        ⟨hst.left.disk, hst.left.resident⟩, ⟨hst.right.disk, hst.right.resident⟩, hst.spared⟩
      simp only [Server.entered, hst.alike.gate]
    obtain ⟨result, s', t', hr, hq, halike⟩ := ih hentered hg
    rw [Request.serve_gated_shared _ (hg rfl), Request.serve_gated_shared _ hgt, hr, hq]
    refine ⟨_, _, _, rfl, rfl, halike.store, halike.locks, ?_, halike.unbound⟩
    simp only [Server.left, halike.gate]
  | during key operation intent proper =>
    exact Active.during_alike proper key operation intent hst.alike hst.idle hst.left hst.right
      hst.spared

/-- Twins answer an orderly request the same, and stay twins. -/
theorem twins (h : Orderly marks gates r) (hst : s.Twins t)
    (hg : gates = true → s.memory.gate.closed = false) :
    ∃ result s' t', r.serve s = some (result, s') ∧ r.serve t = some (result, t') ∧
      s'.Twins t' ∧ s'.memory.gate = s.memory.gate := by
  obtain ⟨result, s', t', hr, hq, halike⟩ := h.alike hst hg
  have hks := h.kept hst.idle hg hr
  have hkt := h.kept (hst.alike.locks ▸ hst.idle) (hst.alike.gate ▸ hg) hq
  exact ⟨result, s', t', hr, hq, hst.after halike hks hkt (Job.run_fails hr), hks.gate⟩

end Orderly

end Naming
