import Naming.Proofs.Edits
import Naming.Wire

namespace Naming

namespace Name

variable {n : Name} {components : List Component}

/-- Components are labels exactly if each of them names something. -/
theorem labelsFrom_ok_iff {position : Nat} {labels : List Label} :
    labelsFrom position components = .ok labels ↔ components = labels.map Subtype.val := by
  induction components generalizing position labels with
  | nil => cases labels <;> simp [labelsFrom]
  | cons c rest ih =>
    unfold labelsFrom
    constructor
    · intro h
      split at h
      · obtain ⟨others, hothers, rfl⟩ := Store.map_ok h
        rw [List.map_cons, ih.mp hothers]
      · cases h
    · intro h
      cases labels with
      | nil => cases h
      | cons label others =>
        obtain ⟨rfl, hrest⟩ := List.cons.inj h
        rw [dif_pos label.property, ih.mpr hrest]
        rfl

/-- A list is read as a name exactly if it lists the components of the name. -/
theorem ofComponents_ok_iff : ofComponents components = .ok n ↔ components = n.components := by
  unfold ofComponents
  constructor
  · intro h
    split at h
    · cases h
    · cases h
    · rename_i first rest hlabels
      cases h
      exact labelsFrom_ok_iff.mp hlabels
  · intro h
    have hlabels : labelsFrom 0 components = .ok (n.first :: n.rest) := labelsFrom_ok_iff.mpr h
    rw [hlabels]

/-- No name is empty or has a component that names nothing. -/
theorem components_proper (n : Name) :
    n.components ≠ [] ∧ ∀ c ∈ n.components, c.isNamed = true := by
  refine ⟨nofun, ?_⟩
  intro c hc
  obtain ⟨label, _, rfl⟩ := List.mem_map.mp hc
  exact label.property

end Name

namespace Json

variable {α β : Type} {decode : Decoder α} {decodeSecond : Decoder β} {encode : α → Json}
  {field tag name second : String} {fields : List (String × Json)} {place : Nat}
  {j k rest part : Json} {a : α} {b : β}

theorem list_map {as : List α} (h : ∀ a, decode (encode a) = .ok a) :
    list decode (.arr (as.map encode)) = .ok as := by
  simp only [list]
  induction as with
  | nil => rfl
  | cons a as ih =>
    rw [List.map_cons, items, h a, ih]
    rfl

theorem one_field (h : decode j = .ok a) : one name decode (.obj [(name, j)]) = .ok a := by
  simp [one, given, required, h, Except.map, Bind.bind, Except.bind]

theorem two_fields (hne : name ≠ second) (ha : decode j = .ok a) (hb : decodeSecond k = .ok b) :
    two name decode second decodeSecond (.obj [(name, j), (second, k)]) = .ok (a, b) := by
  have hsecond : List.lookup second [(name, j), (second, k)] = some k := by
    simp [lookup_cons_if, hne.symm]
  simp [two, given, required, ha, hb, hsecond, Except.map, Bind.bind, Except.bind, Pure.pure,
    Except.pure]

theorem fromOne_field {make : α → β} (h : decode j = .ok a) :
    fromOne name decode make (.obj [(name, j)]) = .ok (make a) := by
  unfold fromOne
  rw [one_field h]
  rfl

theorem fromTwo_fields {γ : Type} {make : α → β → γ} (hne : name ≠ second)
    (ha : decode j = .ok a) (hb : decodeSecond k = .ok b) :
    fromTwo name decode second decodeSecond make (.obj [(name, j), (second, k)]) =
      .ok (make a b) := by
  unfold fromTwo
  rw [two_fields hne ha hb]
  rfl

/-- What stands in a value for a part of it: the field of this name, or the item at this place. -/
inductive Part (name : String) (place : Nat) : Json → Json → Prop
  | field {fields : List (String × Json)} {part : Json} (found : fields.lookup name = some part) :
      Part name place (.obj fields) part
  | item {items : List Json} {part : Json} (found : items[place]? = some part) :
      Part name place (.arr items) part

theorem given_ok {found : Option Json} {option : Option α}
    (hfound : ∀ part, found = some part → Part name place j part)
    (hgiven : given decode found = .ok option) (hrequired : required option = .ok a) :
    ∃ part, Part name place j part ∧ decode part = .ok a := by
  cases found with
  | none =>
    cases hgiven
    cases hrequired
  | some part =>
    obtain ⟨_, hdecode, rfl⟩ := Store.map_ok hgiven
    cases hrequired
    exact ⟨part, hfound part rfl, hdecode⟩

/-- A value with one part is decoded from what stands there. -/
theorem one_ok (h : one name decode j = .ok a) :
    ∃ part, Part name 0 j part ∧ decode part = .ok a := by
  unfold one at h
  split at h
  · obtain ⟨option, hgiven, hrequired⟩ := bind_ok h
    exact given_ok (fun _ => .field) hgiven hrequired
  · obtain ⟨option, hgiven, hrest⟩ := bind_ok h
    obtain ⟨_, hrequired, hlength⟩ := bind_ok hrest
    split at hlength
    · cases hlength
      exact given_ok (fun _ => .item) hgiven hrequired
    · cases hlength
  · cases h

/-- Of a value with two parts the first is decoded from what stands there. -/
theorem two_ok (h : two name decode second decodeSecond j = .ok (a, b)) :
    ∃ part, Part name 0 j part ∧ decode part = .ok a := by
  unfold two at h
  split at h
  · split at h
    · obtain ⟨option, hgiven, hrest⟩ := bind_ok h
      obtain ⟨_, _, hrest⟩ := bind_ok hrest
      obtain ⟨_, hrequired, hrest⟩ := bind_ok hrest
      obtain ⟨_, _, hpair⟩ := bind_ok hrest
      cases hpair
      exact given_ok (fun _ => .field) hgiven hrequired
    · obtain ⟨_, _, hrest⟩ := bind_ok h
      obtain ⟨option, hgiven, hrest⟩ := bind_ok hrest
      obtain ⟨_, hrequired, hrest⟩ := bind_ok hrest
      obtain ⟨_, _, hpair⟩ := bind_ok hrest
      cases hpair
      exact given_ok (fun _ => .field) hgiven hrequired
  · obtain ⟨option, hgiven, hrest⟩ := bind_ok h
    obtain ⟨_, hrequired, hrest⟩ := bind_ok hrest
    obtain ⟨_, _, hrest⟩ := bind_ok hrest
    obtain ⟨_, _, hlength⟩ := bind_ok hrest
    split at hlength
    · cases hlength
      exact given_ok (fun _ => .item) hgiven hrequired
    · cases hlength
  · cases h

/-- What is left beside a tag has its parts where the value has them. -/
theorem tagged_part (h : tagged field j = .ok (tag, rest)) (hne : name ≠ field)
    (hp : Part name place rest part) : Part name (place + 1) j part := by
  unfold tagged at h
  split at h
  · obtain ⟨_, _, hrest⟩ := bind_ok h
    obtain ⟨_, _, hpair⟩ := bind_ok hrest
    cases hpair
    cases hp with
    | field found =>
      rw [lookup_filter_ne, if_neg hne] at found
      exact .field found
  · obtain ⟨_, _, hpair⟩ := bind_ok h
    cases hpair
    cases hp with
    | item found => exact .item found
  · cases h

/-- A tag is taken off an object none of whose other fields bears its name. -/
theorem tagged_field (h : ∀ p ∈ fields, p.1 ≠ field) :
    tagged field (.obj ((field, .str tag) :: fields)) = .ok (tag, .obj fields) := by
  have hrest : fields.filter (·.1 ≠ field) = fields := by
    apply List.filter_eq_self.mpr
    intro p hp
    exact decide_eq_true (h p hp)
  simp only [tagged, lookup_cons_if, if_pos, given, text, Except.map, required, Bind.bind,
    Except.bind, Pure.pure, Except.pure]
  rw [List.filter_cons_of_neg (by simp), hrest]

variable {variants : List (String × Decoder α)} {variant : String}

theorem lookup_of_mem {entries : List (String × β)} (hdistinct : (entries.map (·.1)).Nodup)
    (h : (tag, b) ∈ entries) : entries.lookup tag = some b := by
  induction entries with
  | nil => cases h
  | cons e entries ih =>
    obtain ⟨hnew, hrest⟩ := List.nodup_cons.mp hdistinct
    rw [lookup_cons_if]
    rcases List.mem_cons.mp h with he | hmem
    · rw [← he, if_pos rfl]
    · have hne : tag ≠ e.1 := by
        intro hsame
        exact hnew (List.mem_map.mpr ⟨_, hmem, hsame⟩)
      rw [if_neg hne, ih hrest hmem]

/-- A variant is decoded by its own decoder when no two have the same tag. -/
theorem union_variant (hdistinct : (variants.map fun v => snakeCase v.1).Nodup)
    (hfields : ∀ p ∈ fields, p.1 ≠ field) (hvariant : (variant, decode) ∈ variants)
    (hdecode : decode (.obj fields) = .ok a) :
    union field variants (.obj ((field, .str (snakeCase variant)) :: fields)) = .ok a := by
  have hlookup : (variants.map fun v => (snakeCase v.1, v.2)).lookup (snakeCase variant) =
      some decode := by
    apply lookup_of_mem
    · rw [List.map_map]
      exact hdistinct
    · exact List.mem_map.mpr ⟨_, hvariant, rfl⟩
  simp only [union, tagged_field hfields, hlookup, required, Bind.bind, Except.bind]
  exact hdecode

/-- Whatever is decoded was decoded by one of the variants. -/
theorem union_ok (h : union field variants j = .ok a) :
    ∃ tag rest, tagged field j = .ok (tag, rest) ∧ ∃ v ∈ variants, v.2 rest = .ok a := by
  obtain ⟨⟨tag, rest⟩, htagged, hrest⟩ := bind_ok h
  obtain ⟨chosen, hchosen, hdecode⟩ := bind_ok hrest
  cases hlookup : (variants.map fun v => (snakeCase v.1, v.2)).lookup tag with
  | none =>
    rw [hlookup] at hchosen
    cases hchosen
  | some found =>
    rw [hlookup] at hchosen
    cases hchosen
    obtain ⟨before, after, hsplit, _⟩ := List.lookup_eq_some_iff.mp hlookup
    have hmem : (tag, chosen) ∈ variants.map fun v => (snakeCase v.1, v.2) := by simp [hsplit]
    obtain ⟨v, hv, hsame⟩ := List.mem_map.mp hmem
    cases hsame
    exact ⟨_, rest, htagged, v, hv, hdecode⟩

/-- The components that are listed in a value are those of a name: there is one or more, and each
names something. -/
def Lists (j : Json) (n : Name) : Prop :=
  ∃ components, list Component.ofJson j = .ok components ∧ components ≠ [] ∧
    (∀ c ∈ components, c.isNamed = true) ∧ n.components = components

/-- The name in what a decoder gives was decoded from the part of the value that bears it. -/
def TakesName (decode : Decoder α) (name? : α → Option Name) : Prop :=
  ∀ j a n, decode j = .ok a → name? a = some n →
    ∃ part, Part "name" 0 j part ∧ Name.ofJson part = .ok n

variable {name? : α → Option Name}

theorem takesName_one {make : Name → α} (hmake : ∀ n, name? (make n) = some n) :
    TakesName (fromOne "name" Name.ofJson make) name? := by
  intro j a n h hname
  obtain ⟨m, hone, rfl⟩ := Store.map_ok h
  cases (hmake m).symm.trans hname
  exact one_ok hone

theorem takesName_two {make : Name → β → α} (hmake : ∀ n b, name? (make n b) = some n) :
    TakesName (fromTwo "name" Name.ofJson second decodeSecond make) name? := by
  intro j a n h hname
  obtain ⟨p, htwo, rfl⟩ := Store.map_ok h
  cases (hmake p.1 p.2).symm.trans hname
  exact two_ok htwo

/-- What is made of anything else without a name takes none. -/
theorem takesName_none {decode : Decoder β} {make : β → α}
    (hmake : ∀ b, name? (make b) = none) :
    TakesName (fun j => (decode j).map make) name? := by
  intro j a n h hname
  obtain ⟨b, _, rfl⟩ := Store.map_ok h
  cases (hmake b).symm.trans hname

end Json

theorem Json.text_str (s : String) : text (.str s) = .ok s := rfl

theorem Json.word_int {max : Nat} (h : max < Nat.pow 2 64) : word (.int max) = .ok max := by
  have hfits : 0 ≤ (max : Int) ∧ (max : Int) < Nat.pow 2 64 := by
    refine ⟨Int.natCast_nonneg max, ?_⟩
    exact_mod_cast h
  simp only [word, natural, if_pos hfits, Int.toNat_natCast]

theorem Component.ofJson_toJson (c : Component) : ofJson c.toJson = .ok c := by
  unfold ofJson toJson
  rw [Json.two_fields (by decide) (Json.text_str c.id) (Json.text_str c.kind)]
  rfl

namespace Name

theorem ofJson_toJson (n : Name) : ofJson n.toJson = .ok n := by
  unfold ofJson toJson
  rw [Json.list_map Component.ofJson_toJson]
  simp only [Bind.bind, Except.bind, ofComponents_ok_iff.mpr rfl]
  rfl

/-- Every name that is decoded has its components listed in the value. -/
theorem lists_of_ofJson {j : Json} {n : Name} (h : ofJson j = .ok n) : j.Lists n := by
  obtain ⟨components, hlist, hname⟩ := bind_ok h
  split at hname
  · rename_i m hread
    cases hname
    obtain ⟨hne, hnamed⟩ := n.components_proper
    obtain rfl := ofComponents_ok_iff.mp hread
    exact ⟨_, hlist, hne, hnamed, rfl⟩
  · cases hname

end Name

/-- A name in a value of several variants was listed in the value. -/
theorem Json.union_lists {α : Type} {field : String} {variants : List (String × Json.Decoder α)}
    {name? : α → Option Name} {j : Json} {a : α} {n : Name} (hfield : "name" ≠ field)
    (hvariants : ∀ v ∈ variants, TakesName v.2 name?) (h : union field variants j = .ok a)
    (hname : name? a = some n) : ∃ part, Part "name" 1 j part ∧ part.Lists n := by
  obtain ⟨tag, rest, htagged, v, hv, hdecode⟩ := union_ok h
  obtain ⟨part, hpart, hread⟩ := hvariants v hv _ _ _ hdecode hname
  exact ⟨part, tagged_part htagged hfield hpart, Name.lists_of_ofJson hread⟩

theorem ContextKey.ofJson_toJson (key : ContextKey) : ofJson key.toJson = .ok key := rfl

theorem Target.ofJson_toJson (t : Target) : ofJson t.toJson = .ok t := by
  cases t <;> rfl

theorem Binding.ofJson_toJson (b : Binding) : ofJson b.toJson = .ok b := by
  unfold ofJson toJson
  rw [Json.two_fields (by decide) b.name.ofJson_toJson b.target.ofJson_toJson]
  rfl

/-- The two tables of what operations are called agree. -/
theorem Operation.tag_eq_name (o : Operation) : o.tag = o.name := by
  cases o <;> rfl

namespace Call

/-- The number in a call, if there is one, fits into a word of the machine. -/
def Fits (c : Call) : Prop := ∀ max, c = list max → max < Nat.pow 2 64

def name? : Call → Option Name
  | bind name _ | bindContext name _ | rebind name _ | rebindContext name _ => some name
  | resolve name | unbind name | bindNewContext name | toText name => some name
  | list _ | newContext | destroy | toName _ | resolveText _ => none

theorem variant_operation (c : Call) : c.variant = c.operation.variant := by
  cases c <;> rfl

/-- A call is sent under the name of its operation. -/
theorem toJson_tagged (c : Call) : c.toJson = .obj (("op", .str c.operation.name) :: c.fields) := by
  unfold toJson
  rw [c.variant_operation]
  exact congrArg (fun tag => Json.obj (("op", .str tag) :: c.fields)) c.operation.tag_eq_name

theorem variants_distinct : (variants.map fun v => Json.snakeCase v.1).Nodup := by
  decide

theorem fields_apart (c : Call) : ∀ p ∈ c.fields, p.1 ≠ "op" := by
  cases c <;> simp [fields]

/-- A call is read from what it is sent as. -/
theorem ofJson_toJson (c : Call) (h : c.Fits) : ofJson c.toJson = .ok c := by
  have hread {decode : Json.Decoder Call} (hvariant : (c.variant, decode) ∈ variants)
      (hdecode : decode (.obj c.fields) = .ok c) : ofJson c.toJson = .ok c :=
    Json.union_variant variants_distinct c.fields_apart hvariant hdecode
  -- which decoder it is remains open until the row of the table is found
  cases c with
  | bind name reference | rebind name reference =>
    apply hread (by simp [variants, variant]; rfl)
    exact Json.fromTwo_fields (by decide) name.ofJson_toJson (Json.text_str reference)
  | bindContext name key | rebindContext name key =>
    apply hread (by simp [variants, variant]; rfl)
    exact Json.fromTwo_fields (by decide) name.ofJson_toJson key.ofJson_toJson
  | resolve name | unbind name | bindNewContext name | toText name =>
    apply hread (by simp [variants, variant]; rfl)
    exact Json.fromOne_field name.ofJson_toJson
  | list max =>
    apply hread (by simp [variants, variant]; rfl)
    exact Json.fromOne_field (Json.word_int (h max rfl))
  | newContext | destroy =>
    apply hread (by simp [variants, variant]; rfl)
    rfl
  | toName text | resolveText text =>
    apply hread (by simp [variants, variant]; rfl)
    exact Json.fromOne_field (Json.text_str text)

theorem variants_takeName : ∀ v ∈ variants, Json.TakesName v.2 name? := by
  simp only [variants, List.forall_mem_cons]
  refine ⟨Json.takesName_two fun _ _ => rfl, Json.takesName_two fun _ _ => rfl,
    Json.takesName_two fun _ _ => rfl, Json.takesName_two fun _ _ => rfl,
    Json.takesName_one fun _ => rfl, Json.takesName_one fun _ => rfl,
    Json.takesName_none fun _ => rfl, Json.takesName_none fun _ => rfl,
    Json.takesName_one fun _ => rfl, Json.takesName_none fun _ => rfl,
    Json.takesName_one fun _ => rfl, Json.takesName_none fun _ => rfl,
    Json.takesName_none fun _ => rfl, nofun⟩

end Call

namespace Reply

def name? : Reply → Option Name
  | name n => some n
  | finished | resolved _ | context _ | listing .. | text _ => none

theorem variants_distinct : (variants.map fun v => Json.snakeCase v.1).Nodup := by
  decide

theorem fields_apart (r : Reply) : ∀ p ∈ r.fields, p.1 ≠ "reply" := by
  cases r <;> simp [fields]

/-- A reply is read from what it is sent as. -/
theorem ofJson_toJson (r : Reply) : ofJson r.toJson = .ok r := by
  have hread {decode : Json.Decoder Reply} (hvariant : (r.variant, decode) ∈ variants)
      (hdecode : decode (.obj r.fields) = .ok r) : ofJson r.toJson = .ok r :=
    Json.union_variant variants_distinct r.fields_apart hvariant hdecode
  cases r with
  | finished =>
    apply hread (by simp [variants, variant]; rfl)
    rfl
  | resolved target =>
    apply hread (by simp [variants, variant]; rfl)
    exact Json.fromOne_field target.ofJson_toJson
  | context key =>
    apply hread (by simp [variants, variant]; rfl)
    exact Json.fromOne_field key.ofJson_toJson
  | listing bindings rest =>
    apply hread (by simp [variants, variant]; rfl)
    exact Json.fromTwo_fields (by decide) (Json.list_map Binding.ofJson_toJson)
      (Json.list_map Binding.ofJson_toJson)
  | name n =>
    apply hread (by simp [variants, variant]; rfl)
    exact Json.fromOne_field n.ofJson_toJson
  | text s =>
    apply hread (by simp [variants, variant]; rfl)
    exact Json.fromOne_field (Json.text_str s)

theorem variants_takeName : ∀ v ∈ variants, Json.TakesName v.2 name? := by
  simp only [variants, List.forall_mem_cons]
  refine ⟨Json.takesName_none fun _ => rfl, Json.takesName_none fun _ => rfl,
    Json.takesName_none fun _ => rfl, Json.takesName_none fun _ => rfl,
    Json.takesName_one fun _ => rfl, Json.takesName_none fun _ => rfl, nofun⟩

end Reply

/-- What clients and the service send each other is read as what was sent, and no name is read that
has no components or one that names nothing. -/
theorem messages_read_back :
    (∀ c : Call, c.Fits → Call.ofJson c.toJson = .ok c) ∧
    (∀ c : Call, c.toJson = .obj (("op", .str c.operation.name) :: c.fields)) ∧
    (∀ r : Reply, Reply.ofJson r.toJson = .ok r) ∧
    (∀ (j : Json) (n : Name), Name.ofJson j = .ok n → j.Lists n) ∧
    (∀ (j : Json) (c : Call) (n : Name), Call.ofJson j = .ok c → c.name? = some n →
      ∃ part, Json.Part "name" 1 j part ∧ part.Lists n) ∧
    (∀ (j : Json) (r : Reply) (n : Name), Reply.ofJson j = .ok r → r.name? = some n →
      ∃ part, Json.Part "name" 1 j part ∧ part.Lists n) :=
  ⟨Call.ofJson_toJson, Call.toJson_tagged, Reply.ofJson_toJson,
    fun _ _ h => Name.lists_of_ofJson h,
    fun _ _ _ h hname => Json.union_lists (by decide) Call.variants_takeName h hname,
    fun _ _ _ h hname => Json.union_lists (by decide) Reply.variants_takeName h hname⟩

/-- The greatest number that fits into a word; and a call in an array, whose name is nothing but a
kind. -/
theorem messages_read_back_widest :
    (Call.list (Nat.pow 2 64 - 1)).Fits ∧
      Call.ofJson (Call.list (Nat.pow 2 64 - 1)).toJson = .ok (.list (Nat.pow 2 64 - 1)) ∧
      ∃ (j : Json) (n : Name),
        j = .arr [.str "unbind", .arr [.obj [("kind", .str "svc"), ("id", .str "")]]] ∧
          n.components = [⟨"", "svc"⟩] ∧ Call.ofJson j = .ok (.unbind n) ∧
          ∃ part, Json.Part "name" 1 j part ∧ part.Lists n := by
  obtain ⟨hcalls, _, _, _, hnames, _⟩ := messages_read_back
  have hfits : (Call.list (Nat.pow 2 64 - 1)).Fits := by
    intro max hmax
    cases hmax
    decide
  have hread : Call.ofJson
      (.arr [.str "unbind", .arr [.obj [("kind", .str "svc"), ("id", .str "")]]]) =
        .ok (.unbind (.single ⟨⟨"", "svc"⟩, by decide⟩)) := by rfl
  exact ⟨hfits, hcalls _ hfits, _, _, rfl, rfl, hread, hnames _ _ _ hread rfl⟩

end Naming
