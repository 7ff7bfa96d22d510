import Mathlib.Logic.Function.Basic
import Naming.Proofs.Keys

namespace Naming

namespace Counter

variable {raw : Option Bytes} {index : Nat} {next : Bytes}

theorem value_bigEndian (h : index < limit) :
    value (some (Bytes.bigEndian 8 index)) = .ok index := by
  rw [value, if_pos (Bytes.length_bigEndian 8 index), Bytes.ofBigEndian_bigEndian h]

/-- A counter hands out the number it holds, unless it could not hold the number after that. -/
theorem advance_of_value (h : value raw = .ok index) :
    advance raw = if index + 1 < limit then .ok (index, Bytes.bigEndian 8 (index + 1))
      else .error .exhausted := by
  simp only [advance, h, Bind.bind, Except.bind]
  rfl

theorem advance_ok (h : advance raw = .ok (index, next)) :
    value raw = .ok index ∧ index + 1 < limit ∧ next = Bytes.bigEndian 8 (index + 1) := by
  cases hvalue : value raw with
  | error failure =>
    simp only [advance, hvalue, Bind.bind, Except.bind] at h
    cases h
  | ok number =>
    rw [advance_of_value hvalue] at h
    split at h
    · cases h
      exact ⟨rfl, ‹_›, rfl⟩
    · cases h

theorem advance_misshapen {bytes : Bytes} (h : bytes.length ≠ 8) : advance (some bytes) =
    .error (.corrupt "allocator counter" s!"expected 8 bytes, got {bytes.length}") := by
  simp only [advance, value, if_neg h, Bind.bind, Except.bind]

end Counter

/-- Where an allocator is: about to read the counter, or in possession of the counter it read, of
the number in it and of the counter to swap in. -/
inductive Attempt where
  | fresh
  | ready (seen : Option Bytes) (index : Nat) (next : Bytes)

/-- Allocators that share one disk, with the answers they gave so far in the order of time. -/
structure Allocators (ι : Type) where
  disk : Disk
  attempts : ι → Attempt := fun _ => .fresh
  answers : List (ι × Except StorageFailure ContextKey) := []

namespace Allocators

variable {ι : Type} {s : Allocators ι} {first n : Nat}

/-- The keys that were handed out, in the order of time. -/
def keys (s : Allocators ι) : List ContextKey := s.answers.filterMap fun a => a.2.toOption

/-- The counter has come from one number to another, and exactly the keys between them were handed
out. What an allocator is about to swap in is right for the counter that it has read. -/
structure Counted (s : Allocators ι) (first n : Nat) : Prop where
  mark : s.disk.highWaterMark = .ok n
  le : first ≤ n
  keys : s.keys = (List.range' first (n - first)).map .ofIndex
  ready : ∀ i seen index next, s.attempts i = .ready seen index next →
    Counter.advance seen = .ok (index, next)

namespace Counted

theorem start {d : Disk} (h : d.highWaterMark = .ok first) :
    Counted ({ disk := d } : Allocators ι) first first :=
  ⟨h, Nat.le_refl first, by simp [Allocators.keys], nofun⟩

theorem nodup (h : s.Counted first n) : s.keys.Nodup := by
  rw [h.keys]
  exact List.Nodup.map (fun _ _ => ContextKey.ofIndex_injective) List.nodup_range'

/-- Whoever still has what the counter is swaps in the number after it. -/
theorem swapped {i : ι} {seen : Option Bytes} {index : Nat} {next : Bytes} {marks : Tree}
    (h : s.Counted first n) (hi : s.attempts i = .ready seen index next)
    (hswap : Counter.swap s.disk.marks Disk.counterPlace seen next = some marks) :
    index = n ∧ n + 1 < Counter.limit ∧
      ({ s.disk with marks := marks } : Disk).highWaterMark = .ok (n + 1) := by
  obtain ⟨hvalue, hlimit, hnext⟩ := Counter.advance_ok (h.ready i seen index next hi)
  unfold Counter.swap at hswap
  split at hswap
  · rename_i hseen
    cases hswap
    have hmark : Counter.value seen = .ok n := hseen ▸ h.mark
    obtain rfl : index = n := Except.ok.inj (hvalue.symm.trans hmark)
    refine ⟨rfl, hlimit, ?_⟩
    rw [Disk.highWaterMark, Tree.get?_insert, if_pos rfl, hnext, Counter.value_bigEndian hlimit]
  · cases hswap

end Counted

variable [DecidableEq ι]

/-- One allocator takes a step. It reads the counter, which may be one that hands out nothing, or it
swaps the counter that it has read. When another was faster it starts over. -/
def turn (s : Allocators ι) (i : ι) : Allocators ι :=
  match s.attempts i with
  | .fresh =>
    match Counter.advance (s.disk.marks.get? Disk.counterPlace) with
    | .ok (index, next) => { s with
        attempts := Function.update s.attempts i
          (.ready (s.disk.marks.get? Disk.counterPlace) index next) }
    | .error failure => { s with answers := s.answers ++ [(i, .error failure)] }
  | .ready seen index next =>
    match Counter.swap s.disk.marks Disk.counterPlace seen next with
    | some marks =>
      { disk := { s.disk with marks := marks }
        attempts := Function.update s.attempts i .fresh
        answers := s.answers ++ [(i, .ok (.ofIndex index))] }
    | none => { s with attempts := Function.update s.attempts i .fresh }

/-- The allocators take their steps in this order. -/
def play (s : Allocators ι) (turns : List ι) : Allocators ι := turns.foldl turn s

/-- What a step of an allocator can be. -/
inductive Turned (s : Allocators ι) (i : ι) : Allocators ι → Prop
  | read {index : Nat} {next : Bytes} (fresh : s.attempts i = .fresh)
      (advanced : Counter.advance (s.disk.marks.get? Disk.counterPlace) = .ok (index, next)) :
      Turned s i { s with
        attempts := Function.update s.attempts i
          (.ready (s.disk.marks.get? Disk.counterPlace) index next) }
  | failed {failure : StorageFailure} (fresh : s.attempts i = .fresh)
      (refused : Counter.advance (s.disk.marks.get? Disk.counterPlace) = .error failure) :
      Turned s i { s with answers := s.answers ++ [(i, .error failure)] }
  | swapped {seen : Option Bytes} {index : Nat} {next : Bytes} {marks : Tree}
      (ready : s.attempts i = .ready seen index next)
      (swap : Counter.swap s.disk.marks Disk.counterPlace seen next = some marks) :
      Turned s i
        { disk := { s.disk with marks := marks }
          attempts := Function.update s.attempts i .fresh
          answers := s.answers ++ [(i, .ok (.ofIndex index))] }
  | outrun {seen : Option Bytes} {index : Nat} {next : Bytes}
      (ready : s.attempts i = .ready seen index next)
      (swap : Counter.swap s.disk.marks Disk.counterPlace seen next = none) :
      Turned s i { s with attempts := Function.update s.attempts i .fresh }

theorem turned (s : Allocators ι) (i : ι) : s.Turned i (s.turn i) := by
  unfold turn
  split
  · rename_i hi
    split
    · exact .read hi ‹_›
    · exact .failed hi ‹_›
  · rename_i hi
    split
    · exact .swapped hi ‹_›
    · exact .outrun hi ‹_›

/-- An allocator that nobody comes between reads and then swaps, which is to allocate at once. -/
theorem read_swap_of_allocate_ok {i : ι} {key : ContextKey} {e : Disk} (hi : s.attempts i = .fresh)
    (h : s.disk.allocate = .ok (key, e)) :
    (s.turn i).turn i = { s with disk := e, answers := s.answers ++ [(i, .ok key)] } := by
  obtain ⟨m, hm, -⟩ := Disk.allocate_ok h
  rw [Disk.allocate_eq hm] at h
  split at h
  · rename_i hlimit
    cases h
    have hread : Counter.advance (s.disk.marks.get? Disk.counterPlace) =
        .ok (m, Bytes.bigEndian 8 (m + 1)) := by
      rw [Counter.advance_of_value hm, if_pos hlimit]
    have hback : Function.update s.attempts i .fresh = s.attempts := by
      rw [← hi, Function.update_eq_self]
    simp only [turn, hi, hread, Function.update_self, Counter.swap, if_true,
      Function.update_idem, hback]
  · cases h

/-- What stops allocating at once is the first thing that an allocator finds. -/
theorem turn_of_allocate_error {i : ι} {failure : StorageFailure} (hi : s.attempts i = .fresh)
    (h : s.disk.allocate = .error failure) :
    s.turn i = { s with answers := s.answers ++ [(i, .error failure)] } := by
  have hread : Counter.advance (s.disk.marks.get? Disk.counterPlace) = .error failure := by
    cases hadvance : Counter.advance (s.disk.marks.get? Disk.counterPlace) with
    | error found =>
      simp only [Disk.allocate, hadvance, Bind.bind, Except.bind] at h
      cases h
      rfl
    | ok p =>
      simp only [Disk.allocate, hadvance, Bind.bind, Except.bind, Counter.swap, if_true] at h
      cases h
  simp only [turn, hi, hread]

variable {t : Allocators ι} {i : ι}

namespace Counted

theorem turned (h : s.Counted first n) (ht : s.Turned i t) : ∃ m, n ≤ m ∧ t.Counted first m := by
  -- only the allocator whose step it is has something else in hand afterwards
  have hready : ∀ attempt : Attempt, (∀ seen index next, attempt = .ready seen index next →
      Counter.advance seen = .ok (index, next)) → ∀ j seen index next,
      Function.update s.attempts i attempt j = .ready seen index next →
        Counter.advance seen = .ok (index, next) := by
    intro attempt hattempt j seen index next hj
    by_cases hji : j = i
    · rw [hji, Function.update_self] at hj
      exact hattempt seen index next hj
    · rw [Function.update_of_ne hji] at hj
      exact h.ready j seen index next hj
  have hkeys := h.keys
  cases ht with
  | read _ hadvance =>
    refine ⟨n, Nat.le_refl n, h.mark, h.le, hkeys, hready _ ?_⟩
    rintro _ _ _ ⟨⟩
    exact hadvance
  | failed =>
    refine ⟨n, Nat.le_refl n, h.mark, h.le, ?_, h.ready⟩
    exact List.filterMap_append.trans ((List.append_nil _).trans hkeys)
  | swapped hi hswap =>
    obtain ⟨rfl, _, hmark⟩ := h.swapped hi hswap
    refine ⟨_, Nat.le_succ _, hmark, Nat.le_succ_of_le h.le, ?_, hready _ nofun⟩
    rw [Nat.succ_sub h.le, List.range'_concat, List.map_append, ← hkeys, Nat.one_mul,
      Nat.add_sub_cancel' h.le]
    exact List.filterMap_append
  | outrun => exact ⟨n, Nat.le_refl n, h.mark, h.le, hkeys, hready _ nofun⟩

theorem play (h : s.Counted first n) (turns : List ι) :
    ∃ m, n ≤ m ∧ (s.play turns).Counted first m := by
  induction turns generalizing s n with
  | nil => exact ⟨n, Nat.le_refl n, h⟩
  | cons i rest ih =>
    obtain ⟨m, hle, hm⟩ := h.turned (s.turned i)
    obtain ⟨k, hle', hk⟩ := ih hm
    exact ⟨k, Nat.le_trans hle hle', hk⟩

end Counted

/-- Whether an allocator has taken a step that it has yet to answer. -/
def pending (s : Allocators ι) (i : ι) : Nat :=
  match s.attempts i with
  | .fresh => 0
  | .ready _ _ _ => 1

/-- All that these steps did was to refuse keys, and no allocator took more than one step that was
not answered. -/
structure Refused (turns : List ι) (s t : Allocators ι) : Prop where
  disk : t.disk = s.disk
  answers : ∃ new, t.answers = s.answers ++ new ∧
    (∀ answer ∈ new, answer.2 = .error .exhausted) ∧
    ∀ j, turns.count j + t.pending j ≤ new.countP (·.1 = j) + s.pending j

namespace Refused

theorem nil (s : Allocators ι) : Refused [] s s :=
  ⟨rfl, [], (List.append_nil _).symm, nofun, fun j => by simp⟩

theorem cons {u : Allocators ι} {rest : List ι} (h : Refused [i] s t) (h' : Refused rest t u) :
    Refused (i :: rest) s u := by
  obtain ⟨new, hnew, hall, hcount⟩ := h.answers
  obtain ⟨later, hlater, hall', hcount'⟩ := h'.answers
  refine ⟨h'.disk.trans h.disk, new ++ later, ?_, ?_, fun j => ?_⟩
  · rw [hlater, hnew, List.append_assoc]
  · intro answer ha
    exact (List.mem_append.mp ha).elim (hall answer) (hall' answer)
  · have hj := hcount j
    have hj' := hcount' j
    rw [List.count_cons, List.countP_append]
    rw [List.count_singleton] at hj
    omega

end Refused

namespace Counted

/-- At its end the counter hands out nothing more: a step finds it there, or finds it moved since
it was read. -/
theorem refused (h : s.Counted first n) (hend : n + 1 = Counter.limit) (ht : s.Turned i t) :
    t.Counted first n ∧ Refused [i] s t := by
  obtain ⟨m, hle, hm⟩ := h.turned ht
  have hlt := Disk.highWaterMark_lt hm.mark
  obtain rfl : m = n := by omega
  have hrefuse : Counter.advance (s.disk.marks.get? Disk.counterPlace) = .error .exhausted := by
    rw [Counter.advance_of_value h.mark, if_neg (by omega)]
  refine ⟨hm, ?_⟩
  cases ht with
  | read _ hadvance => exact nomatch hrefuse.symm.trans hadvance
  | failed hi hfailure =>
    cases hrefuse.symm.trans hfailure
    refine ⟨rfl, _, rfl, by simp, fun j => ?_⟩
    rw [List.count_singleton, List.countP_singleton]
    simp only [pending, beq_iff_eq, decide_eq_true_eq]
    omega
  | swapped hi hswap =>
    obtain ⟨_, hlimit, _⟩ := h.swapped hi hswap
    omega
  | outrun hi =>
    refine ⟨rfl, [], (List.append_nil _).symm, nofun, fun j => ?_⟩
    by_cases hj : j = i
    · subst hj
      simp [pending, hi]
    · have hij : i ≠ j := Ne.symm hj
      simp [pending, Function.update_of_ne hj, hij]

theorem play_refused (h : s.Counted first n) (hend : n + 1 = Counter.limit) (turns : List ι) :
    Refused turns s (s.play turns) := by
  induction turns generalizing s with
  | nil => exact .nil s
  | cons i rest ih =>
    obtain ⟨hnext, hrefused⟩ := h.refused hend (s.turned i)
    exact hrefused.cons (ih hnext)

end Counted

/-- A counter of another length is left alone, and every step finds it so. -/
theorem play_misshapen {raw : Bytes} (hfresh : ∀ i, s.attempts i = .fresh)
    (hraw : s.disk.marks.get? Disk.counterPlace = some raw) (hlength : raw.length ≠ 8)
    (turns : List ι) :
    s.play turns = { s with
      answers := s.answers ++ turns.map fun i =>
        (i, .error (.corrupt "allocator counter" s!"expected 8 bytes, got {raw.length}")) } := by
  induction turns generalizing s with
  | nil => simp [play]
  | cons i rest ih =>
    have hturn : s.turn i = { s with
        answers := s.answers ++ [(i, .error (.corrupt "allocator counter"
          s!"expected 8 bytes, got {raw.length}"))] } := by
      simp only [turn, hfresh i, hraw, Counter.advance_misshapen hlength]
    have hrest := ih (s := s.turn i) (hturn ▸ hfresh) (hturn ▸ hraw)
    rw [hturn] at hrest
    change (s.turn i).play rest = _
    rw [hturn, hrest]
    simp only [List.append_assoc, List.map_cons, List.singleton_append]

/-- Allocators that share a disk hand every number out once and in order, whatever comes between the
two steps of each, until the counter is at its end. -/
theorem keys_of_play (d : Disk) (turns later : List ι) :
    (∀ first, d.highWaterMark = .ok first → ∃ m n,
      (play { disk := d } turns).disk.highWaterMark = .ok m ∧
      (play { disk := d } (turns ++ later)).disk.highWaterMark = .ok n ∧
      first ≤ m ∧ m ≤ n ∧ n < Counter.limit ∧
      (play { disk := d } turns).keys = (List.range' first (m - first)).map .ofIndex ∧
      (play { disk := d } turns).keys.Nodup ∧
      (m + 1 = Counter.limit →
        (play { disk := d } (turns ++ later)).disk = (play { disk := d } turns).disk ∧
        ∃ new, (play { disk := d } (turns ++ later)).answers =
            (play { disk := d } turns).answers ++ new ∧
          (∀ answer ∈ new, answer.2 = .error .exhausted) ∧
          ∀ i, later.count i ≤ new.countP (·.1 = i) + 1)) ∧
    ∀ raw, d.marks.get? Disk.counterPlace = some raw → raw.length ≠ 8 →
      (play { disk := d } turns).disk = d ∧
      (play { disk := d } turns).answers = turns.map fun i =>
        (i, .error (.corrupt "allocator counter" s!"expected 8 bytes, got {raw.length}")) := by
  have hsplit : play { disk := d } (turns ++ later) = (play { disk := d } turns).play later :=
    List.foldl_append
  refine ⟨fun first hfirst => ?_, fun raw hraw hlength => ?_⟩
  · obtain ⟨m, hle, hm⟩ := (Counted.start hfirst).play turns
    obtain ⟨n, hle', hn⟩ := hm.play later
    rw [hsplit]
    refine ⟨m, n, hm.mark, hn.mark, hle, hle', Disk.highWaterMark_lt hn.mark, hm.keys, hm.nodup,
      fun hend => ?_⟩
    have hrefused := hm.play_refused hend later
    obtain ⟨new, hnew, hall, hcount⟩ := hrefused.answers
    refine ⟨hrefused.disk, new, hnew, hall, fun i => ?_⟩
    have hpending : (play { disk := d } turns).pending i ≤ 1 := by
      unfold pending
      split <;> omega
    have hi := hcount i
    omega
  · rw [play_misshapen (fun _ => rfl) hraw hlength]
    exact ⟨rfl, List.nil_append _⟩

/-- Two allocators read the same counter, three numbers below its limit. The slower one has to start
over and gets the last number there is. -/
theorem keys_of_play_at_the_end :
    let d : Disk := { marks :=
      ({} : Tree).insert Disk.counterPlace (Bytes.bigEndian 8 (Counter.limit - 3)) }
    let turns := [false, true, true, false, false, false]
    d.highWaterMark = .ok (Counter.limit - 3) ∧
      (play { disk := d } turns).keys =
        [.ofIndex (Counter.limit - 3), .ofIndex (Counter.limit - 2)] ∧
      (play { disk := d } (turns ++ [true, false, true])).disk =
        (play { disk := d } turns).disk := by
  intro d turns
  have hfirst : d.highWaterMark = .ok (Counter.limit - 3) := by decide +kernel
  have hmark : (play { disk := d } turns).disk.highWaterMark = .ok (Counter.limit - 1) := by
    decide +kernel
  obtain ⟨m, n, hm, _, _, _, _, hkeys, _, hend⟩ :=
    (keys_of_play d turns [true, false, true]).1 _ hfirst
  obtain rfl : m = Counter.limit - 1 := Except.ok.inj (hm.symm.trans hmark)
  exact ⟨hfirst, hkeys.trans (by decide +kernel), (hend (by decide +kernel)).1⟩

end Allocators

end Naming
