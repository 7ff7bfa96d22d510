import Naming.Proofs.UnboundMarks

namespace Naming

variable {α : Type} {s t : Server}

/-- Every record that can be read is regular. Others may be damaged. -/
def Disk.Regular (d : Disk) : Prop :=
  ∀ key bindings, d.load key = .ok (some bindings) → bindings.Regular

namespace Disk

variable {d e : Disk} {key : ContextKey} {bindings : BindingSet}

theorem Sound.allRegular (h : d.Sound) : d.Regular := fun _ _ hload => h.regular hload

theorem Regular.regular (h : d.Regular) (hload : d.load key = .ok (some bindings)) :
    bindings.Regular :=
  h key bindings hload

theorem Regular.congr (h : d.Regular) (he : e.contexts = d.contexts) : e.Regular := by
  intro key bindings hload
  have hsame : e.load key = d.load key := load_congr (by rw [he])
  exact h key bindings (hsame ▸ hload)

theorem Regular.save (h : d.Regular) (hb : bindings.Regular)
    (hs : d.save key bindings = .ok e) : e.Regular := by
  intro other stored hload
  by_cases hkey : other = key
  · rw [hkey, load_save hs, hb.eq_ofList] at hload
    cases hload
    exact hb
  · rw [load_save_other hs hkey] at hload
    exact h other stored hload

theorem Regular.remove (h : d.Regular) (key : ContextKey) : (d.remove key).Regular := by
  intro other stored hload
  by_cases hkey : other = key
  · have hgone : (d.remove key).load key = .ok none :=
      load_none_iff.mpr ((get?_remove d key _).trans (if_pos rfl))
    rw [hkey, hgone] at hload
    cases hload
  · rw [load_remove_other hkey] at hload
    exact h other stored hload

end Disk

/-- A server that may have damaged records. Those that can be read are regular, and what is kept in
memory is what the records hold. -/
structure Server.Fair (s : Server) : Prop where
  disk : s.store.disk.Regular
  resident : ∀ key bindings, s.memory.resident.get? key = some bindings →
    s.store.disk.load key = .ok (some bindings)

theorem Server.Sound.fair (h : s.Sound) : s.Fair := ⟨h.disk.allRegular, h.resident⟩

theorem Server.Fair.congr (h : s.Fair) (hcontexts : t.store.disk.contexts = s.store.disk.contexts)
    (hresident : t.memory.resident = s.memory.resident) : t.Fair := by
  refine ⟨h.disk.congr hcontexts, fun key bindings hr => ?_⟩
  have hsame : t.store.disk.load key = s.store.disk.load key :=
    Disk.load_congr (by rw [hcontexts])
  exact hsame.trans (h.resident key bindings (hresident ▸ hr))

/-- What an activation finds is regular, and it is what the record holds unless it is to be
saved. -/
theorem Server.Fair.found (h : s.Fair) {key : ContextKey} {intent : Intent}
    {bindings : BindingSet} {dirty : Bool} (hf : s.found key intent = .ok (bindings, dirty)) :
    bindings.Regular ∧ (dirty = false → s.store.disk.load key = .ok (some bindings)) := by
  unfold Server.found at hf
  split at hf
  · rename_i found hr
    cases hf
    have hload := h.resident key bindings hr
    exact ⟨h.disk key bindings hload, fun _ => hload⟩
  · split at hf
    · cases hf
    · rename_i hl
      cases hf
      have hload := Store.load_ok hl
      exact ⟨h.disk key bindings hload, fun _ => hload⟩
    · cases hf
      exact ⟨BindingSet.regular_empty, nofun⟩
    · cases hf

namespace Active

/-- What holds in the middle of a request on a fair server: the context in use and its record
differ only if the context counts as changed or removed. -/
structure Carried (c : Active) (s : Server) : Prop where
  disk : s.store.disk.Regular
  regular : c.bindings.Regular
  stored : c.dirty = false → c.removed = false →
    s.store.disk.load c.key = .ok (some c.bindings)
  others : ∀ key bindings, key ≠ c.key → s.memory.resident.get? key = some bindings →
    s.store.disk.load key = .ok (some bindings)

namespace Carried

variable {c : Active}

theorem called (h : Carried c s) {store : Store} {events : List Log.Event}
    (hd : store.disk = s.store.disk) : Carried c ⟨store, s.memory, events⟩ :=
  ⟨hd ▸ h.disk, h.regular, hd ▸ h.stored, hd ▸ h.others⟩

theorem edited (h : Carried c s) {bindings : BindingSet} (hb : bindings.Regular) :
    Carried { c with dirty := true, bindings := bindings } s :=
  ⟨h.disk, hb, nofun, h.others⟩

theorem saved (h : Carried c s) {store : Store} {events : List Log.Event}
    (hs : s.store.disk.save c.key c.bindings = .ok store.disk) :
    Carried { c with dirty := false } ⟨store, s.memory, events⟩ := by
  refine ⟨h.disk.save h.regular hs, h.regular, fun _ _ => ?_, fun key bindings hk hr => ?_⟩
  · have hload := Disk.load_save hs
    rwa [h.regular.eq_ofList] at hload
  · exact (Disk.load_save_other hs hk).trans (h.others key bindings hk hr)

theorem removed (h : Carried c s) {store : Store} {events : List Log.Event}
    (hr : store.disk = s.store.disk.remove c.key) :
    Carried { c with removed := true } ⟨store, s.memory, events⟩ := by
  refine ⟨hr ▸ h.disk.remove c.key, h.regular, nofun, fun key bindings hk hb => ?_⟩
  have hload : store.disk.load key = s.store.disk.load key := hr ▸ Disk.load_remove_other hk
  exact hload.trans (h.others key bindings hk hb)

theorem released (h : Carried c s) : (c.released s).Fair := by
  refine ⟨h.disk, fun key bindings hk => ?_⟩
  rcases get?_keeps hk with ⟨rfl, rfl, hdirty, hremoved⟩ | ⟨hne, hr⟩
  · exact h.stored hdirty hremoved
  · exact h.others key bindings hne hr

end Carried

theorem Proper.carries {use : Use α} (h : Proper use) {c c' : Active} {s s' : Server}
    {result : Except Failure α} (hc : Carried c s)
    (hp : play use c s = some ((result, c'), s')) : Carried c' s' := by
  induction h generalizing c c' s s' with
  | pure | throw | get =>
    cases hp
    exact hc
  | ofStorage =>
    rw [play_ofStorage] at hp
    cases hp
    exact hc
  | bind first next ihFirst ihNext =>
    rw [play_bind] at hp
    obtain ⟨outcome, b, u, hfirst, _⟩ := first.plays c s
    rw [hfirst] at hp
    cases outcome with
    | error failure =>
      cases hp
      exact ihFirst hc hfirst
    | ok a =>
      have hb := ihFirst hc hfirst
      exact ihNext a hb hp
  | contains key =>
    rw [play_contains] at hp
    cases hp
    exact hc.called (s.store.contains_disk key)
  | edit regular =>
    rename_i change
    rw [play_edit] at hp
    cases hd : c.demanded "modify" with
    | error failure =>
      rw [hd] at hp
      cases hp
      exact hc
    | ok _ =>
      rw [hd] at hp
      cases hchange : change c.bindings with
      | error failure =>
        rw [hchange] at hp
        cases hp
        exact hc.edited hc.regular
      | ok r =>
        rw [hchange] at hp
        cases hp
        exact hc.edited (regular _ _ _ hc.regular hchange)
  | commit =>
    rw [play_commit] at hp
    cases hd : c.demanded "commit" with
    | error failure =>
      rw [hd] at hp
      cases hp
      exact hc
    | ok _ =>
      rw [hd] at hp
      rcases s.store.save_cases c.key c.bindings with ⟨failure, store, hs, he⟩ | ⟨store, hs, he⟩
      · rw [hs] at hp
        cases hp
        exact hc.called he
      · rw [hs] at hp
        cases hp
        exact hc.saved he
  | remove =>
    rw [play_remove] at hp
    cases hd : c.demanded "remove" with
    | error failure =>
      rw [hd] at hp
      cases hp
      exact hc
    | ok _ =>
      rw [hd] at hp
      rcases s.store.remove_cases c.key with ⟨failure, store, hs, he⟩ | ⟨store, hs, he⟩
      · rw [hs] at hp
        cases hp
        exact hc.called he
      · rw [hs] at hp
        cases hp
        exact hc.removed he

theorem during_fair {use : Use α} (h : Proper use) {key : ContextKey} {operation : Operation}
    {intent : Intent} {result : Except Failure α} (hs : s.memory.locks.Idle) (hfair : s.Fair)
    (hr : (during key operation intent use).serve s = some (result, t)) : t.Fair := by
  have hd : (s.looked key).disk = s.store.disk := s.looked_disk key
  rw [serve_during key operation intent use hs] at hr
  cases hf : s.found key intent with
  | error failure =>
    rw [hf] at hr
    cases hr
    exact hfair.congr (congrArg Disk.contexts hd) rfl
  | ok p =>
    rw [hf] at hr
    obtain ⟨q, hplay, he⟩ := Option.map_eq_some_iff.mp hr
    cases he
    obtain ⟨hregular, hstored⟩ := hfair.found hf
    refine (h.carries ⟨hd.symm ▸ hfair.disk, hregular, fun hclean _ => ?_, fun k b _ hk => ?_⟩
      hplay).released
    · exact hd.symm ▸ hstored hclean
    · exact hd.symm ▸ hfair.resident k b hk

end Active

namespace Orderly

variable {marks gates : Bool} {r : Request α} {result : Except Failure α}

theorem run_steady_fair {r : Job α} {a : α} (h : r.All (Action.Steady marks)) (hfair : s.Fair)
    (hr : r.run s = some (a, t)) : t.Fair := by
  induction r generalizing s with
  | done b =>
    cases hr
    exact hfair
  | step action next ih =>
    obtain ⟨answer, u, hp, hsettled⟩ := h.1.performs s
    simp only [Job.run, hp] at hr
    exact ih answer (h.2 answer) (hfair.congr hsettled.contexts hsettled.resident) hr

/-- An orderly request leaves a fair server fair, whatever calls of the store fail. -/
theorem fair (h : Orderly marks gates r) (hs : s.Ready) (hfair : s.Fair)
    (hr : r.serve s = some (result, t)) : t.Fair := by
  induction h generalizing s t with
  | steps steady => exact run_steady_fair steady hfair hr
  | bind first next ihFirst ihNext =>
    rcases Request.serve_bind_cases hr with ⟨failure, hfirst, rfl⟩ | ⟨a, u, hfirst, hrest⟩
    · exact ihFirst hs hfair hfirst
    · have hk := first.kept hs.idle (fun _ => hs.opened) hfirst
      exact ihNext a ⟨hk.locks, hk.gate ▸ hs.opened⟩ (ihFirst hs hfair hfirst) hrest
  | attempt tried ih =>
    rw [Request.serve_attempt] at hr
    obtain ⟨p, hfirst, he⟩ := Option.map_eq_some_iff.mp hr
    cases he
    exact ih hs hfair hfirst
  | gated inside ih =>
    obtain ⟨u, hinside, rfl⟩ := Request.serve_gated_cases hs.opened hr
    have hu : u.Fair := ih hs.entered ⟨hfair.disk, hfair.resident⟩ hinside
    exact ⟨hu.disk, hu.resident⟩
  | during key operation intent proper => exact Active.during_fair proper hs.idle hfair hr

end Orderly

end Naming
