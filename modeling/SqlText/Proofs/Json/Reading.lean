import Mathlib.Algebra.Group.Nat.Defs
import Mathlib.Data.List.Nodup
import SqlText.Proofs.Json.Forms

/-!
# Readings of JSON forms

A decoder reads forms up to a depth (`Decoder.Reads`) if, of all JSON values below that depth, it
accepts just the forms of each value and gives that value back. The combinators of
`SqlText.Json.Decoder` keep this property, and a recursive reading has it at every depth if each
unrolling adds one level to it (`Decoder.reads_fix`).

A reading of a record or of a tagged value is split up once, in `Decoder.Reads.record` and
`Decoder.Reads.tagged`. What is left to say of a type is which fields or which payload it reads.
-/

namespace SqlText

variable {α ε : Type} {n : Nat}

/-! ## Depth -/

namespace Json

theorem depth_lt_of_mem {items : List Json} {j : Json} (h : j ∈ items) :
    j.depth < (Json.arr items).depth := by
  induction items with
  | nil => cases h
  | cons item rest ih =>
    simp only [depth, depthItems] at ih ⊢
    rcases List.mem_cons.1 h with rfl | h
    · omega
    · have := ih h
      omega

theorem depth_lt_of_lookup {members : List (String × Json)} {name : String} {j : Json}
    (h : members.lookup name = some j) : j.depth < (Json.obj members).depth := by
  induction members with
  | nil => cases h
  | cons member rest ih =>
    obtain ⟨key, value⟩ := member
    simp only [depth, depthMembers] at ih ⊢
    rw [List.lookup_cons] at h
    split at h
    · cases h
      omega
    · have := ih h
      omega

end Json

/-! ## Readings -/

/-- Below a depth, a decoder accepts the given forms and no other values. No form is `null`, which
is what tells an absent value apart from one that is there. -/
structure Decoder.Reads (n : Nat) (decoder : Decoder α) (forms : α → Forms) : Prop where
  iff : ∀ j, j.depth < n → ∀ a, decoder j = some a ↔ forms a j
  not_null : ∀ a, ¬ forms a .null

/-- All given fields are below a depth. -/
def Fields.Below (n : Nat) (given : Fields) : Prop :=
  ∀ name j, given name = some j → j.depth < n

/-- A payload, if there is one, is below a depth. -/
def Below (n : Nat) (given : Option Json) : Prop :=
  ∀ j, given = some j → j.depth < n

namespace Slot

@[simp] theorem name_required (name : String) (value : Forms) : (required name value).name = name :=
  rfl

@[simp] theorem name_optional (name : String) (value : Option Forms) :
    (optional name value).name = name :=
  rfl

@[simp] theorem admits_required_some {name : String} {value : Forms} {j : Json} :
    (required name value).Admits (some j) ↔ value j :=
  ⟨fun | .given h => h, .given⟩

/-- What is given for an optional field is what may be given where `null` stands for absence. -/
@[simp] theorem admits_optional_some {name : String} {value : Option Forms} {j : Json} :
    (optional name value).Admits (some j) ↔ Forms.Nullable value j := by
  constructor
  · rintro (_ | _ | _ | h)
    · exact .null
    · exact .value h
  · rintro (_ | h)
    · exact .null
    · exact .present h

end Slot

namespace Variant

@[simp] theorem tag_bare (tag : String) : (bare tag).tag = tag := rfl

@[simp] theorem tag_holding (tag : String) (payload : Forms) :
    (holding tag payload).tag = tag := rfl

@[simp] theorem admits_bare {tag : String} {given : Option Json} :
    (bare tag).Admits given ↔ given = none ∨ given = some .null := by
  constructor
  · rintro (_ | _)
    · exact .inl rfl
    · exact .inr rfl
  · rintro (rfl | rfl)
    · exact .alone
    · exact .null

@[simp] theorem admits_holding {tag : String} {payload : Forms} {given : Option Json} :
    (holding tag payload).Admits given ↔ ∃ j, given = some j ∧ payload j := by
  constructor
  · rintro (_ | _ | h)
    exact ⟨_, rfl, h⟩
  · rintro ⟨j, rfl, h⟩
    exact .payload h

end Variant

namespace Forms

@[simp] theorem nullable_none_iff {j : Json} : Nullable none j ↔ j = .null := by
  constructor
  · rintro ⟨⟩
    rfl
  · rintro rfl
    exact .null

@[simp] theorem nullable_some_iff {value : Forms} {j : Json} : Nullable (some value) j ↔ value j :=
  ⟨fun | .value h => h, .value⟩

@[simp] theorem object_obj_iff {slots : List Slot} {members : List (String × Json)} :
    Object slots (.obj members) ↔ ∀ slot ∈ slots, slot.Admits (members.lookup slot.name) :=
  ⟨fun | .obj h => h, .obj⟩

end Forms

/-! ## Leaves and containers -/

namespace Decoder

variable {value : Decoder α} {forms : α → Forms}

/-- A reading up to a depth is one up to every smaller depth. -/
theorem Reads.mono {m : Nat} (h : value.Reads n forms) (hm : m ≤ n) : value.Reads m forms :=
  ⟨fun j hj => h.iff j (Nat.lt_of_lt_of_le hj hm), h.not_null⟩

theorem Reads.of_succ (h : value.Reads (n + 1) forms) : value.Reads n forms :=
  h.mono (Nat.le_succ n)

theorem reads_string : Decoder.string.Reads n Forms.string := by
  refine ⟨fun j _ text => ?_, nofun⟩
  cases j <;> simp [string, Forms.string]

theorem reads_bool : Decoder.bool.Reads n Forms.bool := by
  refine ⟨fun j _ b => ?_, nofun⟩
  cases j <;> simp [bool, Forms.bool]

/-- The numbers of a width are the naturals below the power of two. -/
theorem natOfWidth_eq_some_iff {bits k : Nat} {j : Json} :
    natOfWidth bits j = some k ↔ j = .int k ∧ k < 2 ^ bits := by
  have hpow : ((Nat.pow 2 bits : Nat) : Int) = ((2 ^ bits : Nat) : Int) := rfl
  cases j with
  | int i =>
    simp only [natOfWidth, intIn, hpow, Option.map_eq_some_iff, Option.ite_none_right_eq_some,
      Option.some.injEq, Json.int.injEq]
    constructor
    · rintro ⟨_, ⟨⟨hlo, hhi⟩, rfl⟩, rfl⟩
      omega
    · rintro ⟨rfl, hk⟩
      exact ⟨k, ⟨⟨by omega, by omega⟩, rfl⟩, by omega⟩
  | _ => simp [natOfWidth, intIn]

theorem reads_word16 : word16.Reads n Forms.word16 := by
  refine ⟨fun j _ w => ?_, nofun⟩
  simp only [word16, Option.map_eq_some_iff, natOfWidth_eq_some_iff, Forms.word16]
  constructor
  · rintro ⟨k, ⟨rfl, hk⟩, rfl⟩
    rw [Nat.toUInt16, UInt16.toNat_ofNat_of_lt' hk]
  · rintro rfl
    exact ⟨w.toNat, ⟨rfl, w.toNat_lt⟩, UInt16.ofNat_toNat⟩

theorem reads_word32 : word32.Reads n Forms.word32 := by
  refine ⟨fun j _ w => ?_, nofun⟩
  simp only [word32, Option.map_eq_some_iff, natOfWidth_eq_some_iff, Forms.word32]
  constructor
  · rintro ⟨k, ⟨rfl, hk⟩, rfl⟩
    rw [Nat.toUInt32, UInt32.toNat_ofNat_of_lt' hk]
  · rintro rfl
    exact ⟨w.toNat, ⟨rfl, w.toNat_lt⟩, UInt32.ofNat_toNat⟩

/-- A text is read by a parser of its spellings. -/
theorem reads_parsed {parse : String → Option α} {spelling : α → List Char → Prop}
    (h : ∀ text a, parse text = some a ↔ spelling a text.toList) :
    (Literal.decodeParsed parse).Reads n fun a => Forms.Spelled (spelling a) := by
  refine ⟨fun j _ a => ?_, nofun⟩
  constructor
  · intro hread
    cases j with
    | str text => exact .str ((h _ _).1 hread)
    | _ => cases hread
  · rintro ⟨hspelling⟩
    exact (h _ _).2 hspelling

theorem mapM_eq_some_iff_forall₂ {values : List Json} (hvalues : ∀ j ∈ values, j.depth < n)
    (h : value.Reads n forms) (xs : List α) :
    values.mapM value = some xs ↔
      List.Forall₂ (fun (item : Forms) j => item j) (xs.map forms) values := by
  induction values generalizing xs with
  | nil => cases xs <;> simp
  | cons j rest ih =>
    obtain ⟨hj, hrest⟩ := List.forall_mem_cons.1 hvalues
    rw [List.mapM_cons]
    cases xs with
    | nil => simp [Option.bind_eq_some_iff]
    | cons x xs => simp [Option.bind_eq_some_iff, h.iff j hj, ih hrest]

/-- A list is read item by item. -/
theorem Reads.list (h : value.Reads n forms) :
    (Decoder.list value).Reads n fun xs => Forms.Items (xs.map forms) := by
  refine ⟨fun j hj xs => ?_, nofun⟩
  cases j with
  | arr values =>
    have hvalues : ∀ v ∈ values, v.depth < n := fun v hv =>
      Nat.lt_trans (Json.depth_lt_of_mem hv) hj
    rw [Decoder.list, mapM_eq_some_iff_forall₂ hvalues h]
    exact ⟨.arr, fun ⟨hitems⟩ => hitems⟩
  | _ => exact ⟨nofun, nofun⟩

/-- Where `null` stands for absence, everything else is read as a value. -/
theorem nullable_eq_some_iff (h : value.Reads n forms) (j : Json) (hj : j.depth < n)
    (a : Option α) : nullable value j = some a ↔ Forms.Nullable (a.map forms) j := by
  cases a with
  | none => cases j <;> simp [nullable]
  | some a =>
    rw [Option.map_some, Forms.nullable_some_iff, ← h.iff j hj a]
    cases j with
    | null =>
      have hnull : value .null ≠ some a := fun hread => h.not_null a ((h.iff _ hj a).1 hread)
      simp [nullable, hnull]
    | _ => simp [nullable]

end Decoder

/-! ## Records -/

namespace Fields

variable {given : Fields} {value : Decoder α} {forms : α → Forms}

/-- A required field is read if what is given for it is a form of its value. -/
theorem required_eq_some_iff (hgiven : given.Below n) (h : value.Reads n forms) (name : String)
    (a : α) :
    given.required name value = some a ↔ (Slot.required name (forms a)).Admits (given name) := by
  rw [required]
  cases hj : given name with
  | none => exact ⟨nofun, nofun⟩
  | some j =>
    rw [Option.bind_some, h.iff j (hgiven name j hj) a, Slot.admits_required_some]

/-- An optional field is read as absent if it is missing or `null`. -/
theorem optional_eq_some_iff (hgiven : given.Below n) (h : value.Reads n forms) (name : String)
    (a : Option α) :
    given.optional name value = some a ↔
      (Slot.optional name (a.map forms)).Admits (given name) := by
  rw [optional]
  cases hj : given name with
  | none =>
    cases a with
    | none => exact ⟨fun _ => .missing, fun _ => rfl⟩
    | some a => exact ⟨nofun, nofun⟩
  | some j =>
    rw [Slot.admits_optional_some]
    exact Decoder.nullable_eq_some_iff h j (hgiven name j hj) a

end Fields

/-- Fields that are found by name in an array that holds them in order. -/
theorem forall_admits_zip_iff {slots : List Slot} (hnodup : (slots.map Slot.name).Nodup)
    {values : List Json} (hlength : values.length = slots.length) :
    (∀ slot ∈ slots, slot.Admits (((slots.map Slot.name).zip values).lookup slot.name)) ↔
      List.Forall₂ (fun (slot : Slot) j => slot.Admits (some j)) slots values := by
  induction slots generalizing values with
  | nil => simp [List.length_eq_zero_iff.1 hlength]
  | cons slot rest ih =>
    obtain ⟨j, values, rfl⟩ := List.exists_cons_of_length_eq_add_one hlength
    obtain ⟨hname, hrest⟩ := List.nodup_cons.1 hnodup
    rw [List.forall_mem_cons, List.forall₂_cons, ← ih hrest (Nat.succ.inj hlength)]
    refine and_congr (by simp) (forall₂_congr fun other hother => ?_)
    have hne : (other.name == slot.name) = false := beq_false_of_ne fun heq =>
      hname (heq ▸ List.mem_map_of_mem hother)
    rw [List.map_cons, List.zip_cons_cons, List.lookup_cons, hne]

namespace Decoder

/-- Named fields are read if every one of them is. -/
theorem Reads.fields {read : Fields → Option α} (slots : α → List Slot)
    (h : ∀ given : Fields, given.Below n → ∀ a,
      read given = some a ↔ ∀ slot ∈ slots a, slot.Admits (given slot.name)) :
    (Decoder.fields read).Reads n fun a => Forms.Object (slots a) := by
  refine ⟨fun j hj a => ?_, nofun⟩
  cases j with
  | obj members =>
    rw [Forms.object_obj_iff]
    exact h _ (fun _ _ hlookup => Nat.lt_trans (Json.depth_lt_of_lookup hlookup) hj) a
  | _ => exact ⟨nofun, nofun⟩

/-- A record is read if all its fields are, given by name or in order. -/
theorem Reads.record {names : List String} {read : Fields → Option α} (slots : α → List Slot)
    (hnames : ∀ a, (slots a).map Slot.name = names) (hnodup : names.Nodup)
    (h : ∀ given : Fields, given.Below n → ∀ a,
      read given = some a ↔ ∀ slot ∈ slots a, slot.Admits (given slot.name)) :
    (Decoder.record names read).Reads n fun a => Forms.Record (slots a) := by
  refine ⟨fun j hj a => ?_, ?_⟩
  · cases j with
    | obj members =>
      have hobject := (Reads.fields slots h).iff (.obj members) hj a
      exact hobject.trans ⟨.object, fun | .object hfields => hfields⟩
    | arr values =>
      have hbelow : Fields.Below n fun name => (names.zip values).lookup name := by
        intro name j hlookup
        obtain ⟨before, after, hzip, -⟩ := List.lookup_eq_some_iff.1 hlookup
        have hmem : (name, j) ∈ names.zip values := by simp [hzip]
        exact Nat.lt_trans (Json.depth_lt_of_mem (List.of_mem_zip hmem).2) hj
      have harray : Forms.Record (slots a) (.arr values) ↔
          List.Forall₂ (fun (slot : Slot) j => slot.Admits (some j)) (slots a) values :=
        ⟨fun | .array hfields => hfields, .array⟩
      rw [Decoder.record, harray, Option.ite_none_right_eq_some, h _ hbelow, ← hnames a,
        List.length_map]
      constructor
      · rintro ⟨hvalues, hfields⟩
        exact (forall_admits_zip_iff ((hnames a).symm ▸ hnodup) hvalues).1 hfields
      · intro hfields
        have hvalues := hfields.length_eq.symm
        exact ⟨hvalues, (forall_admits_zip_iff ((hnames a).symm ▸ hnodup) hvalues).2 hfields⟩
    | _ => exact ⟨nofun, nofun⟩
  · rintro a ⟨⟨⟩⟩

/-! ## Tagged values -/

section Payload

variable {β : Type} {given : Option Json}

theorem bare_eq_some_iff {a b : α} :
    bare a given = some b ↔ a = b ∧ (given = none ∨ given = some .null) := by
  cases given with
  | none => simp [bare]
  | some j => cases j <;> simp [bare]

/-- A tag without payload is read alone or with `null`. -/
theorem bare_iff_admits {tag : String} {a : α} :
    bare a given = some a ↔ (Variant.bare tag).Admits given := by
  rw [bare_eq_some_iff, Variant.admits_bare]
  exact and_iff_right rfl

/-- A payload is read if one is given that is a form of its value. -/
theorem payload_iff_admits {value : Decoder α} {forms : α → Forms} {tag : String} {a : α}
    (hgiven : Below n given) (h : ∀ j, j.depth < n → ∀ a, value j = some a ↔ forms a j) :
    payload value given = some a ↔ (Variant.holding tag (forms a)).Admits given := by
  rw [Variant.admits_holding]
  cases given with
  | none => simp [payload]
  | some j => simp [payload, h j (hgiven j rfl)]

/-- A value that is built of its payload alone is read with it. -/
theorem map_payload_iff_admits {value : Decoder β} {forms : β → Forms} {tag : String}
    {build : β → α} {b : β} (hgiven : Below n given)
    (h : ∀ j, j.depth < n → ∀ b, value j = some b ↔ forms b j)
    (hbuild : ∀ x y, build x = build y → x = y) :
    (payload value given).map build = some (build b) ↔
      (Variant.holding tag (forms b)).Admits given := by
  rw [← payload_iff_admits hgiven h, Option.map_eq_some_iff]
  constructor
  · rintro ⟨x, hx, heq⟩
    rw [hx, hbuild x b heq]
  · intro hb
    exact ⟨b, hb, rfl⟩

theorem payload_fields_eq_some_iff {read : Fields → Option α} {a : α} :
    payload (Decoder.fields read) given = some a ↔
      ∃ members, given = some (.obj members) ∧ read (fun name => members.lookup name) = some a := by
  cases given with
  | none => simp [payload]
  | some j => cases j <;> simp [payload, Decoder.fields]

/-- Named fields behind a tag are read from an object if every one of them is. -/
theorem payload_fields_iff_admits {read : Fields → Option α} {slots : List Slot} {tag : String}
    {a : α} (hgiven : Below n given)
    (h : ∀ fields : Fields, fields.Below n →
      (read fields = some a ↔ ∀ slot ∈ slots, slot.Admits (fields slot.name))) :
    payload (Decoder.fields read) given = some a ↔
      (Variant.holding tag (.Object slots)).Admits given := by
  have hfields : ∀ members, given = some (.obj members) →
      Fields.Below n fun name => members.lookup name := fun members hm _ _ hlookup =>
    Nat.lt_trans (Json.depth_lt_of_lookup hlookup) (hgiven _ hm)
  rw [payload_fields_eq_some_iff, Variant.admits_holding]
  constructor
  · rintro ⟨members, hm, hread⟩
    exact ⟨_, hm, .obj ((h _ (hfields members hm)).1 hread)⟩
  · rintro ⟨_, hm, ⟨hslots⟩⟩
    exact ⟨_, hm, (h _ (hfields _ hm)).2 hslots⟩

end Payload

/-- A tagged value is read if its tag is known and the payload belongs to it : what is read behind a
tag has that tag, and behind its own tag a value is read from its payloads. -/
theorem Reads.tagged {read : String → Option Json → Option α} {variant : α → Variant}
    (htag : ∀ tag given a, read tag given = some a → (variant a).tag = tag)
    (h : ∀ given, Below n given → ∀ a,
      read (variant a).tag given = some a ↔ (variant a).Admits given) :
    (Decoder.tagged read).Reads (n + 1) fun a => Forms.Tagged (variant a) := by
  have hread : ∀ tag given a, Below n given →
      (read tag given = some a ↔ (variant a).tag = tag ∧ (variant a).Admits given) := by
    intro tag given a hgiven
    constructor
    · intro hsome
      obtain rfl := htag tag given a hsome
      exact ⟨rfl, (h given hgiven a).1 hsome⟩
    · rintro ⟨rfl, hadmits⟩
      exact (h given hgiven a).2 hadmits
  refine ⟨fun j hj a => ?_, nofun⟩
  unfold Decoder.tagged
  split
  · next tag =>
    rw [hread tag none a nofun]
    constructor
    · rintro ⟨rfl, hadmits⟩
      exact .text hadmits
    · intro htagged
      cases htagged with
      | text hadmits => exact ⟨rfl, hadmits⟩
  · next tag payload =>
    have hpayload : Below n (some payload) := by
      rintro _ ⟨⟩
      simp only [Json.depth, Json.depthMembers] at hj
      omega
    rw [hread tag (some payload) a hpayload]
    constructor
    · rintro ⟨rfl, hadmits⟩
      exact .object hadmits
    · intro htagged
      cases htagged with
      | object hadmits => exact ⟨rfl, hadmits⟩
  · next hstr hobj =>
    refine ⟨nofun, ?_⟩
    rintro (_ | _)
    · exact (hstr _ rfl).elim
    · exact (hobj _ _ rfl).elim

/-- One of finitely many values is read by its tag, if all are listed and no two share a tag. -/
theorem reads_oneOf {values : List α} {tag : α → String} (hall : ∀ a, a ∈ values)
    (hnodup : (values.map tag).Nodup) :
    (oneOf values tag).Reads n fun a => Forms.tag (tag a) := by
  refine Reads.of_succ (Reads.tagged (fun name given a hread => ?_) fun given _ a => ?_)
  · obtain ⟨b, hfind, hbare⟩ := Option.bind_eq_some_iff.1 hread
    obtain ⟨rfl, -⟩ := bare_eq_some_iff.1 hbare
    have hname := List.find?_some hfind
    exact of_decide_eq_true hname
  · obtain ⟨b, hfind⟩ : ∃ b, values.find? (fun value => tag value = tag a) = some b :=
      Option.isSome_iff_exists.1 (List.find?_isSome.2 ⟨a, hall a, decide_eq_true rfl⟩)
    have hname := List.find?_some hfind
    obtain rfl := List.inj_on_of_nodup_map hnodup (hall b) (hall a) (of_decide_eq_true hname)
    rw [Variant.tag_bare, hfind, Option.bind_some]
    exact bare_iff_admits

/-! ## Recursion -/

/-- A recursive reading reads up to a depth if each unrolling below it adds one level. -/
theorem reads_fix {step : Decoder α → Decoder α} {forms : α → Forms} (hnull : ∀ a, ¬ forms a .null)
    (hstep : ∀ m, m < n → ∀ self : Decoder α, self.Reads m forms →
      (step self).Reads (m + 1) forms) :
    (fix step).Reads n forms := by
  have hunrolled : ∀ k, k ≤ n → (Nat.repeat step k fun _ => none).Reads k forms := by
    intro k hk
    induction k with
    | zero => exact ⟨fun j hj => absurd hj (Nat.not_lt_zero _), hnull⟩
    | succ k ih => exact hstep k hk _ (ih (Nat.le_of_lt hk))
  exact ⟨fun j hj => (hunrolled (j.depth + 1) hj).iff j (Nat.lt_succ_self _), hnull⟩

end Decoder

end SqlText
