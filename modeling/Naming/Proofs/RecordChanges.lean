import Mathlib.Logic.Relation
import Naming.Proofs.Creations
import Naming.Proofs.Histories

namespace Naming

namespace Disk

/-- What requests change a disk by. Changes that remove records are told apart. -/
inductive Change (removes : Bool) : Disk → Disk → Prop
  | rewritten {d e : Disk} {key : ContextKey} {bindings : BindingSet}
      (stored : d.contains key = true)
      (links : ∀ other ∈ bindings.contexts, other ∈ d.links key ∨ d.contains other = true)
      (done : d.put key bindings = .ok e) : Change removes d e
  | handed {d e : Disk} {key : ContextKey} (done : d.allocate = .ok (key, e)) : Change removes d e
  | made {d e : Disk} {key : ContextKey} (done : d.create = .ok (key, e)) : Change removes d e
  | pruned {d e : Disk} (permitted : removes = true) (marks : e.marks = d.marks)
      (records : ∀ place, e.contexts.get? place = d.contexts.get? place ∨
        e.contexts.get? place = none) : Change removes d e

/-- One change after another, or none. -/
abbrev Changes (removes : Bool) : Disk → Disk → Prop := Relation.ReflTransGen (Change removes)

/-- Every context that a record leads to has a record. -/
def Whole (d : Disk) : Prop := ∀ key, ∀ other ∈ d.links key, d.contains other = true

variable {d e : Disk} {n : Nat} {key : ContextKey} {bindings : BindingSet} {removes : Bool}

theorem Whole.congr (h : d.Whole) (he : e.contexts = d.contexts) : e.Whole := by
  intro key other hl
  have hlinks : e.links key = d.links key := links_congr (by rw [he])
  rw [contains_eq, he]
  exact h key other (hlinks ▸ hl)

theorem Whole.put (h : d.Whole) (hput : d.put key bindings = .ok e)
    (hlinks : ∀ other ∈ bindings.contexts, d.contains other = true) : e.Whole := by
  intro k other hl
  have hstored : d.contains other = true := by
    rw [links_put hput] at hl
    split at hl
    · exact hlinks other hl
    · exact h k other hl
  rw [contains_put hput, hstored, Bool.or_true]

theorem whole_empty : Whole {} := nofun

namespace Change

theorem keyed (h : Change removes d e) (hd : d.Keyed n) : ∃ m, n ≤ m ∧ e.Keyed m := by
  cases h with
  | rewritten stored links done => exact ⟨n, Nat.le_refl n, hd.rewritten stored links done⟩
  | handed done => exact ⟨n + 1, Nat.le_succ n, (hd.allocated done).2.2⟩
  | made done => exact ⟨n + 1, Nat.le_succ n, (hd.created done).2⟩
  | pruned _ marks records => exact ⟨n, Nat.le_refl n, hd.pruned marks records⟩

theorem root (h : Change removes d e) : e.root? = d.root? := by
  cases h with
  | rewritten _ _ done => exact root?_congr (marks_save (put_ok done))
  | handed done => exact allocate_root done
  | made done =>
    obtain ⟨f, hallocate, hput⟩ := create_ok done
    exact (root?_congr (marks_save (put_ok hput))).trans (allocate_root hallocate)
  | pruned _ marks _ => exact root?_congr marks

/-- As long as no record is removed, no link breaks. -/
theorem whole (h : Change false d e) (hd : d.Whole) : e.Whole := by
  cases h with
  | rewritten stored links done =>
    refine hd.put done fun other ho => ?_
    rcases links other ho with hold | hstored
    · exact hd _ other hold
    · exact hstored
  | handed done =>
    obtain ⟨_, _, _, _, hcontexts⟩ := allocate_ok done
    exact hd.congr hcontexts
  | made done =>
    obtain ⟨f, hallocate, hput⟩ := create_ok done
    obtain ⟨_, _, _, _, hcontexts⟩ := allocate_ok hallocate
    refine (hd.congr hcontexts).put hput fun other ho => ?_
    rw [BindingSet.contexts_empty] at ho
    cases ho
  | pruned permitted _ _ => cases permitted

end Change

namespace Changes

theorem keyed (h : Changes removes d e) (hd : d.Keyed n) : ∃ m, n ≤ m ∧ e.Keyed m := by
  induction h with
  | refl => exact ⟨n, Nat.le_refl n, hd⟩
  | tail _ last ih =>
    obtain ⟨m, hle, hm⟩ := ih
    obtain ⟨k, hle', hk⟩ := last.keyed hm
    exact ⟨k, Nat.le_trans hle hle', hk⟩

theorem root (h : Changes removes d e) : e.root? = d.root? := by
  induction h with
  | refl => rfl
  | tail _ last ih => exact last.root.trans ih

theorem whole (h : Changes false d e) (hd : d.Whole) : e.Whole := by
  induction h with
  | refl => exact hd
  | tail _ last ih => exact last.whole ih

theorem same (h : e = d) : Changes removes d e := h ▸ .refl

end Changes

variable {created : ContextKey}

/-- When a context that was just made is removed again, only its key is spent. -/
theorem Keyed.remove_created (h : d.Keyed n) (hc : d.create = .ok (created, e)) :
    d.allocate = .ok (created, e.remove created) := by
  obtain ⟨f, hallocate, hput⟩ := create_ok hc
  obtain ⟨hkey, hcontexts, _⟩ := h.allocated hallocate
  have habsent : f.contexts.get? (place created) = none := by
    have hfree := h.not_contains
    rwa [← hkey, contains_eq, Option.isSome_eq_false_iff, Option.isNone_iff_eq_none,
      ← hcontexts] at hfree
  have hsame : e.remove created = f := by
    rw [put_eq hput, remove]
    dsimp only
    rw [Tree.erase_insert _ habsent]
  rw [hsame, hallocate]

theorem bindLast_changes {last : Label} {target : Target} {placement : Context.Placement}
    (h : d.bindLast key last target placement = .ok e) : Changes removes d e := by
  obtain ⟨changed, hstored, hlinks, hput⟩ := bindLast_put h
  exact .single (.rewritten hstored hlinks hput)

theorem bind_changes {name : Name} {target : Target} {placement : Context.Placement}
    (h : d.bind key name target placement = .ok e) : Changes removes d e := by
  obtain ⟨p, _, hbound⟩ := bind_ok h
  exact bindLast_changes hbound

theorem unbind_changes {name : Name} (h : d.unbind key name = .ok e) :
    Changes removes d e := by
  obtain ⟨p, _, hbound⟩ := bind_ok h
  obtain ⟨changed, hstored, hlinks, hput⟩ := unbindLast_put hbound
  exact .single (.rewritten hstored (fun other ho => .inl (hlinks other ho)) hput)

theorem destroy_ok {root : ContextKey} (h : d.destroy root key = .ok e) : e = d.remove key := by
  unfold destroy at h
  split at h
  · cases h
  · obtain ⟨_, _, he⟩ := bind_ok h
    cases he
    rfl

end Disk

end Naming
