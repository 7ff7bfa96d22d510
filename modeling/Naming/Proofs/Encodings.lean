import Naming.Proofs.Edits

namespace Naming

namespace Bytes

/-- Bytes are those of the number that they stand for. -/
theorem littleEndian_ofLittleEndian (bytes : Bytes) :
    littleEndian bytes.length (ofLittleEndian bytes) = bytes := by
  induction bytes with
  | nil => rfl
  | cons b rest ih =>
    have hb : b.toNat < 256 := b.toNat_lt
    have hlow : UInt8.ofNat (b.toNat + 256 * ofLittleEndian rest) = b := by
      apply UInt8.toNat.inj
      rw [UInt8.toNat_ofNat']
      omega
    have hhigh : (b.toNat + 256 * ofLittleEndian rest) / 256 = ofLittleEndian rest := by omega
    rw [List.length_cons, ofLittleEndian, littleEndian, hlow, hhigh, ih]

/-- What bytes are read as is written with the same bytes. -/
theorem ofText_text {bytes : Bytes} {s : String} (h : text bytes = .ok s) : ofText s = bytes := by
  unfold text at h
  dsimp only at h
  split at h
  · cases h
    simp [ofText, String.toUTF8]
  · cases h

end Bytes

namespace Record

variable {bytes rest : Bytes}

theorem number_read {width n : Nat} (h : readNumber width bytes = .ok (n, rest)) :
    n < Bytes.capacity width ∧ bytes = Bytes.littleEndian width n ++ rest := by
  unfold readNumber at h
  split at h
  · cases h
  · rename_i hlong
    cases h
    have hwidth : (bytes.take width).length = width := List.length_take_of_le (by omega)
    have hnumber := Bytes.littleEndian_ofLittleEndian (bytes.take width)
    have hlt := Bytes.ofLittleEndian_lt (bytes.take width)
    rw [hwidth] at hnumber hlt
    exact ⟨hlt, by rw [hnumber, List.take_append_drop]⟩

theorem text_read {s : String} (h : readText bytes = .ok (s, rest)) :
    fitsText s = true ∧ bytes = encodeText s ++ rest := by
  obtain ⟨⟨length, body⟩, hlength, hbody⟩ := bind_ok h
  obtain ⟨hlt, rfl⟩ := number_read hlength
  dsimp only at hbody
  split at hbody
  · cases hbody
  · rename_i hlong
    split at hbody
    · rename_i t htext
      cases hbody
      have hbytes := Bytes.ofText_text htext
      have hsize : (Bytes.ofText s).length = length := by
        rw [hbytes]
        exact List.length_take_of_le (by omega)
      refine ⟨decide_eq_true (hsize ▸ hlt), ?_⟩
      simp only [encodeText]
      rw [hsize, hbytes, List.append_assoc, List.take_append_drop]
    · cases hbody

theorem target_read {t : Target} (h : readTarget bytes = .ok (t, rest)) :
    fitsTarget t = true ∧ bytes = encodeTarget t ++ rest := by
  obtain ⟨⟨tag, body⟩, htag, hbody⟩ := bind_ok h
  obtain ⟨_, rfl⟩ := number_read htag
  dsimp only at hbody
  split at hbody
  · obtain ⟨⟨reference, left⟩, htext, he⟩ := bind_ok hbody
    cases he
    obtain ⟨hfits, rfl⟩ := text_read htext
    exact ⟨hfits, (List.append_assoc _ _ _).symm⟩
  · obtain ⟨⟨key, left⟩, htext, he⟩ := bind_ok hbody
    cases he
    obtain ⟨hfits, rfl⟩ := text_read htext
    exact ⟨hfits, (List.append_assoc _ _ _).symm⟩
  · cases hbody

theorem binding_read {b : Binding} (h : readBinding bytes = .ok (b, rest)) :
    fitsBinding b = true ∧ bytes = encodeBinding b ++ rest := by
  obtain ⟨⟨id, afterId⟩, hid, h⟩ := bind_ok h
  obtain ⟨⟨kind, afterKind⟩, hkind, h⟩ := bind_ok h
  obtain ⟨⟨target, left⟩, htarget, he⟩ := bind_ok h
  cases he
  obtain ⟨hfitsId, rfl⟩ := text_read hid
  obtain ⟨hfitsKind, rfl⟩ := text_read hkind
  obtain ⟨hfitsTarget, rfl⟩ := target_read htarget
  refine ⟨?_, ?_⟩
  · simp only [fitsBinding, Bool.and_eq_true]
    exact ⟨⟨hfitsId, hfitsKind⟩, hfitsTarget⟩
  · simp only [encodeBinding, List.append_assoc]

theorem bindings_read {count : Nat} {entries : List Binding}
    (h : readBindings count bytes = .ok (entries, rest)) : entries.length = count ∧
      entries.all fitsBinding = true ∧ bytes = entries.flatMap encodeBinding ++ rest := by
  induction count generalizing bytes entries with
  | zero =>
    cases h
    exact ⟨rfl, rfl, rfl⟩
  | succ count ih =>
    obtain ⟨⟨b, afterFirst⟩, hfirst, h⟩ := bind_ok h
    obtain ⟨⟨others, left⟩, hothers, he⟩ := bind_ok h
    cases he
    obtain ⟨hfits, rfl⟩ := binding_read hfirst
    obtain ⟨hlength, hall, rfl⟩ := ih hothers
    refine ⟨congrArg Nat.succ hlength, ?_, ?_⟩
    · rw [List.all_cons, hfits, hall]
      rfl
    · rw [List.flatMap_cons, List.append_assoc]

/-- Bytes that start with a record. A record with a length that cannot be stored has no bytes. -/
def Leads (r : Record) (bytes : Bytes) : Prop := r.fits = true ∧ ∃ rest, bytes = r.encode ++ rest

/-- Whatever is read as a record starts with it. -/
theorem decode_leads {r : Record} (h : decode bytes = .ok r) : r.version < Bytes.capacity 4 ∧
    r.bindings = .ofList r.bindings.entries ∧ r.Leads bytes := by
  obtain ⟨⟨version, afterVersion⟩, hversion, h⟩ := bind_ok h
  obtain ⟨⟨key, afterKey⟩, hkey, h⟩ := bind_ok h
  obtain ⟨⟨count, afterCount⟩, hcount, h⟩ := bind_ok h
  obtain ⟨⟨entries, left⟩, hentries, he⟩ := bind_ok h
  cases he
  obtain ⟨hlow, rfl⟩ := number_read hversion
  obtain ⟨hfits, rfl⟩ := text_read hkey
  obtain ⟨hsize, rfl⟩ := number_read hcount
  obtain ⟨hlength, hall, rfl⟩ := bindings_read hentries
  have hcounted : (BindingSet.ofList entries).size = count := hlength
  refine ⟨hlow, rfl, ?_, left, ?_⟩
  · have hentries : (BindingSet.ofList entries).entries.all fitsBinding = true := hall
    have hroom : count < limit := hsize
    simp only [fits, hcounted, hfits, hroom, hentries, decide_true, Bool.and_self]
  · have hentries : (BindingSet.ofList entries).entries = entries := rfl
    simp only [encode, hcounted, hentries, List.append_assoc]

/-- No bytes start with two records, even when they go on differently. -/
theorem Leads.unique {r q : Record} (hr : r.Leads bytes) (hq : q.Leads bytes)
    (hrv : r.version < Bytes.capacity 4) (hqv : q.version < Bytes.capacity 4) :
    r.encode = q.encode := by
  obtain ⟨hrfits, afterFirst, rfl⟩ := hr
  obtain ⟨hqfits, afterSecond, he⟩ := hq
  have hread : decode (r.encode ++ afterFirst) = _ := decode_front hrv hrfits
  rw [he, decode_front hqv hqfits] at hread
  obtain ⟨hversion, hkey, hbindings⟩ := Record.mk.inj (Except.ok.inj hread)
  have hread := congrArg BindingSet.entries hbindings
  have hentries : q.bindings.entries = r.bindings.entries := hread
  simp only [encode, hversion, hkey, hentries, BindingSet.size]

/-- What is missing at the end of a record is missed. -/
theorem decode_torn {r : Record} {torn : Bytes} (hv : r.version < Bytes.capacity 4)
    (h : r.fits = true) (hpart : torn <+: r.encode) (hmissing : torn ≠ r.encode) :
    ∃ fault, decode torn = .error fault := by
  cases hread : decode torn with
  | error fault => exact ⟨fault, rfl⟩
  | ok q =>
    obtain ⟨hqv, _, hqfits, more, hq⟩ := decode_leads hread
    obtain ⟨missing, hwhole⟩ := hpart
    -- the record that was read would lead the whole bytes too, and so be the one that was torn
    have hleads : q.Leads r.encode :=
      ⟨hqfits, more ++ missing, by rw [← hwhole, hq, List.append_assoc]⟩
    have hsame := Leads.unique ⟨h, [], (List.append_nil _).symm⟩ hleads hv hqv
    have hlengths := congrArg List.length hwhole
    rw [hsame, hq, List.length_append, List.length_append] at hlengths
    have hnone : more = [] ∧ missing = [] := by
      constructor <;> exact List.eq_nil_of_length_eq_zero (by omega)
    exact absurd (by rw [← hwhole, hnone.2, List.append_nil]) hmissing

end Record

namespace Disk

variable {key : ContextKey} {raw : Bytes} {bindings : BindingSet}

/-- Bytes that start with the record of a context in the current version. The positions of the
bindings are those that they get when they are read. -/
def Carries (raw : Bytes) (key : ContextKey) (bindings : BindingSet) : Prop :=
  (Record.mk Record.currentVersion key bindings).Leads raw ∧
    bindings = .ofList bindings.entries

theorem readRecord_ok_iff : readRecord key raw = .ok bindings ↔ Carries raw key bindings := by
  constructor
  · intro h
    unfold readRecord at h
    split at h
    · cases h
    · rename_i record hread
      obtain ⟨_, hpositions, hleads⟩ := Record.decode_leads hread
      split at h
      · cases h
      · rename_i hversion
        split at h
        · cases h
        · rename_i hkey
          cases h
          have hrecord : Record.mk Record.currentVersion key record.bindings = record := by
            rw [← not_not.mp hversion, ← not_not.mp hkey]
          exact ⟨hrecord ▸ hleads, hpositions⟩
  · rintro ⟨⟨hfits, rest, rfl⟩, hpositions⟩
    have hversion : Record.currentVersion < Bytes.capacity 4 := by decide
    simpa [readRecord, Record.decode_front hversion hfits] using hpositions.symm

/-- Bytes that cannot be read are reported as damaged. -/
theorem readRecord_error {failure : StorageFailure} (h : readRecord key raw = .error failure) :
    ∃ reason, failure = .corrupt key.text reason := by
  unfold readRecord at h
  split at h
  · cases h
    exact ⟨_, rfl⟩
  · split at h
    · cases h
      exact ⟨_, rfl⟩
    · split at h
      · cases h
        exact ⟨_, rfl⟩
      · cases h

theorem readRecord_decode_error {fault : Record.Fault} (h : Record.decode raw = .error fault) :
    readRecord key raw = .error (.corrupt key.text fault.message) := by
  unfold readRecord
  rw [h]

variable {d e : Disk}

theorem load_stored (h : d.contexts.get? (place key) = some raw) :
    d.load key = (readRecord key raw).map some := by
  unfold load
  rw [h]

/-- What comes of saving bindings under a key: they are read back as they were, and every other
record is as it was. Only what has a length of 2^64 or more is refused. -/
inductive Saved (d : Disk) (key : ContextKey) (bindings : BindingSet) :
    Except StorageFailure Disk → Prop
  | written {e : Disk} {loaded : BindingSet} (load : e.load key = .ok (some loaded))
      (entries : loaded.entries = bindings.entries)
      (positions : bindings.Regular → loaded = bindings)
      (others : ∀ other, other ≠ place key → e.contexts.get? other = d.contexts.get? other)
      (marks : e.marks = d.marks) : Saved d key bindings (.ok e)
  | refused (oversized : (Record.mk Record.currentVersion key bindings).fits = false) :
      Saved d key bindings (.error (Disk.oversized key))

theorem save_saved (d : Disk) (key : ContextKey) (bindings : BindingSet) :
    Saved d key bindings (d.save key bindings) := by
  cases hsave : d.save key bindings with
  | ok e =>
    exact .written (load_save hsave) rfl (fun hregular => hregular.eq_ofList)
      (fun other hother => (get?_save hsave other).trans (if_neg hother)) (marks_save hsave)
  | error failure =>
    simp only [save] at hsave
    split at hsave
    · cases hsave
    · rename_i hfits
      cases hsave
      exact .refused (Bool.eq_false_iff.mpr hfits)

/-- The format of records is exact: bytes are loaded as bindings only if the record of these
bindings stands at their front, and no record that was cut short is taken for another. -/
theorem records_exact (d : Disk) (key : ContextKey) :
    (∀ bindings, Saved d key bindings (d.save key bindings)) ∧
    ∀ raw, d.contexts.get? (place key) = some raw →
      (∀ bindings, d.load key = .ok (some bindings) ↔ Carries raw key bindings) ∧
      ((∀ bindings, ¬ Carries raw key bindings) →
        ∃ reason, d.load key = .error (.corrupt key.text reason)) ∧
      ∀ r : Record, r.version < Bytes.capacity 4 → r.fits = true → raw <+: r.encode →
        raw ≠ r.encode → ∃ reason, d.load key = .error (.corrupt key.text reason) := by
  refine ⟨d.save_saved key, fun raw hraw => ?_⟩
  have hload := load_stored hraw
  refine ⟨fun bindings => ?_, fun hnone => ?_, fun r hv hfits hpart hmissing => ?_⟩
  · rw [← readRecord_ok_iff, hload]
    cases readRecord key raw <;> simp [Except.map]
  · cases hread : readRecord key raw with
    | ok bindings => exact absurd (readRecord_ok_iff.mp hread) (hnone bindings)
    | error failure =>
      obtain ⟨reason, rfl⟩ := readRecord_error hread
      rw [hload, hread]
      exact ⟨reason, rfl⟩
  · obtain ⟨fault, hfault⟩ := Record.decode_torn hv hfits hpart hmissing
    rw [hload, readRecord_decode_error hfault]
    exact ⟨fault.message, rfl⟩

/-- A record of two bindings, of which the last byte was not written. -/
theorem records_exact_torn : ∃ (d e : Disk) (bindings : BindingSet) (raw : Bytes),
    Saved d ⟨"NC1"⟩ bindings (d.save ⟨"NC1"⟩ bindings) ∧
      e.contexts.get? (place ⟨"NC1"⟩) = some raw ∧
      ∃ reason, e.load ⟨"NC1"⟩ = .error (.corrupt "NC1" reason) := by
  let bindings : BindingSet :=
    .ofList [⟨⟨"a", ""⟩, .object "é"⟩, ⟨⟨"b", "dir"⟩, .context ⟨"NC7"⟩⟩]
  let record : Record := ⟨Record.currentVersion, ⟨"NC1"⟩, bindings⟩
  let torn : Disk := { contexts := ⟨[(place ⟨"NC1"⟩, record.encode.dropLast)]⟩ }
  have hstored : torn.contexts.get? (place ⟨"NC1"⟩) = some record.encode.dropLast := by
    decide +kernel
  have hfits : record.fits = true := by decide +kernel
  have hmissing : record.encode.dropLast ≠ record.encode := by decide +kernel
  obtain ⟨hsaved, _⟩ := records_exact {} ⟨"NC1"⟩
  obtain ⟨_, _, htorn⟩ := (records_exact torn ⟨"NC1"⟩).2 _ hstored
  exact ⟨{}, torn, bindings, _, hsaved bindings, hstored,
    htorn record (by decide) hfits (List.dropLast_prefix _) hmissing⟩

end Disk

end Naming
