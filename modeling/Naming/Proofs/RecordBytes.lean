import Naming.Disk

namespace Naming

namespace Bytes

theorem length_littleEndian (count n : Nat) : (littleEndian count n).length = count := by
  induction count generalizing n with
  | zero => rfl
  | succ count ih => simp [littleEndian, ih]

/-- How many numbers there are that so many bytes can tell apart. -/
def capacity (count : Nat) : Nat := Nat.pow 256 count

theorem ofLittleEndian_littleEndian (count n : Nat) :
    ofLittleEndian (littleEndian count n) = n % capacity count := by
  induction count generalizing n with
  | zero => exact (Nat.mod_one n).symm
  | succ count ih =>
    have hmod : (UInt8.ofNat n).toNat = n % 256 := UInt8.toNat_ofNat'
    have hcapacity : capacity (count + 1) = 256 * capacity count := Nat.mul_comm _ _
    rw [littleEndian, ofLittleEndian, ih, hmod, hcapacity, Nat.mod_mul]

theorem ofBigEndian_bigEndian {count n : Nat} (h : n < capacity count) :
    ofBigEndian (bigEndian count n) = n := by
  rw [ofBigEndian, bigEndian, List.reverse_reverse, ofLittleEndian_littleEndian,
    Nat.mod_eq_of_lt h]

/-- A number in so many bytes is one that they can tell apart. -/
theorem ofLittleEndian_lt (bytes : Bytes) : ofLittleEndian bytes < capacity bytes.length := by
  induction bytes with
  | nil => exact Nat.one_pos
  | cons b rest ih =>
    have hb : b.toNat < 256 := b.toNat_lt
    have hcapacity : capacity (rest.length + 1) = 256 * capacity rest.length := Nat.mul_comm _ _
    rw [ofLittleEndian, List.length_cons, hcapacity]
    omega

theorem ofBigEndian_lt (bytes : Bytes) : ofBigEndian bytes < capacity bytes.length := by
  have hlt := ofLittleEndian_lt bytes.reverse
  rwa [List.length_reverse] at hlt

theorem length_bigEndian (count n : Nat) : (bigEndian count n).length = count := by
  rw [bigEndian, List.length_reverse, length_littleEndian]

theorem ofText_injective {s t : String} (h : ofText s = ofText t) : s = t := by
  have hs := text_ofText s
  rw [h, text_ofText] at hs
  exact (Except.ok.inj hs).symm

end Bytes

namespace Record

variable {rest : Bytes}

theorem read_number {width n : Nat} (h : n < Bytes.capacity width) :
    readNumber width (Bytes.littleEndian width n ++ rest) = .ok (n, rest) := by
  have hl := Bytes.length_littleEndian width n
  have hn : ¬ (Bytes.littleEndian width n ++ rest).length < width := by
    simp [hl]
  rw [readNumber, if_neg hn, List.take_left' hl, List.drop_left' hl,
    Bytes.ofLittleEndian_littleEndian, Nat.mod_eq_of_lt h]

theorem read_text {s : String} (h : fitsText s = true) :
    readText (encodeText s ++ rest) = .ok (s, rest) := by
  have hlt : (Bytes.ofText s).length < Bytes.capacity 8 := of_decide_eq_true h
  have hn : ¬ (Bytes.ofText s ++ rest).length < (Bytes.ofText s).length := by simp
  simp only [readText, encodeText, List.append_assoc, read_number hlt, bind, Except.bind, hn,
    if_false, List.take_left', List.drop_left', Bytes.text_ofText]

theorem read_target {t : Target} (h : fitsTarget t = true) :
    readTarget (encodeTarget t ++ rest) = .ok (t, rest) := by
  cases t with
  | object reference =>
    simp only [readTarget, encodeTarget, List.append_assoc, bind, Except.bind,
      read_number (show 0 < Bytes.capacity 4 by decide), read_text h]
    rfl
  | context key =>
    simp only [readTarget, encodeTarget, List.append_assoc, bind, Except.bind,
      read_number (show 1 < Bytes.capacity 4 by decide), read_text h]
    rfl

theorem read_binding {b : Binding} (h : fitsBinding b = true) :
    readBinding (encodeBinding b ++ rest) = .ok (b, rest) := by
  simp only [fitsBinding, Bool.and_eq_true] at h
  simp only [readBinding, encodeBinding, List.append_assoc, bind, Except.bind, read_text h.1.1,
    read_text h.1.2, read_target h.2]
  rfl

theorem read_bindings {entries : List Binding} (h : entries.all fitsBinding = true) :
    readBindings entries.length (entries.flatMap encodeBinding ++ rest) = .ok (entries, rest) := by
  induction entries with
  | nil => rfl
  | cons b entries ih =>
    simp only [List.all_cons, Bool.and_eq_true] at h
    simp only [List.length_cons, readBindings, List.flatMap_cons, List.append_assoc, bind,
      Except.bind, read_binding h.1, ih h.2]
    rfl

/-- Reading gives back what was written in front of anything, with its positions found anew. -/
theorem decode_front {r : Record} (hv : r.version < Bytes.capacity 4) (h : r.fits = true) :
    decode (r.encode ++ rest) = .ok { r with bindings := .ofList r.bindings.entries } := by
  simp only [fits, Bool.and_eq_true, decide_eq_true_eq] at h
  obtain ⟨⟨hkey, hsize⟩, hall⟩ := h
  have hcount : r.bindings.size < Bytes.capacity 8 := hsize
  simp only [decode, encode, List.append_assoc, bind, Except.bind, read_number hv, read_text hkey,
    read_number hcount]
  rw [BindingSet.size, read_bindings hall]
  rfl

theorem decode_encode {r : Record} (hv : r.version < Bytes.capacity 4) (h : r.fits = true) :
    decode r.encode = .ok { r with bindings := .ofList r.bindings.entries } := by
  have hfront : decode (r.encode ++ []) = _ := decode_front hv h
  rwa [List.append_nil] at hfront

end Record

namespace Disk

theorem place_injective {a b : ContextKey} (h : place a = place b) : a = b := by
  obtain ⟨s⟩ := a
  obtain ⟨t⟩ := b
  exact congrArg ContextKey.mk (Bytes.ofText_injective h)

theorem read_record {key : ContextKey} {bindings : BindingSet}
    (h : (Record.mk Record.currentVersion key bindings).fits = true) :
    readRecord key (Record.mk Record.currentVersion key bindings).encode =
      .ok (.ofList bindings.entries) := by
  have hversion : Record.currentVersion < Bytes.capacity 4 := by decide
  simp [readRecord, Record.decode_encode hversion h]

end Disk

end Naming
