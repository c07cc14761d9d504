import SqlText.Clause.Analytic
import SqlText.Clause.Call
import SqlText.Clause.Case
import SqlText.Clause.GroupConcat
import SqlText.Clause.Items

/-!
# Laws of clauses

For every clause: mapping twice is mapping once (`map_map`), the identity maps it to itself
(`map_id`), the sub-expressions of a mapped clause are the mapped sub-expressions (`children_map`),
functions that agree on the sub-expressions map alike (`map_congr`), and every sub-expression is
smaller than the clause (`sizeOf_lt`).
-/

namespace SqlText

variable {ε δ φ : Type}

/-! ## Parts that may be absent or repeated -/

/-- A list of parts, each mapped by `m`, is mapped alike by functions that agree on the parts. -/
theorem listMap_congr {α β : Type} {c : α → List ε} {m m' : α → β} {f g : ε → δ} {xs : List α}
    (part : ∀ x ∈ xs, (∀ e ∈ c x, f e = g e) → m x = m' x)
    (h : ∀ e ∈ xs.flatMap c, f e = g e) : xs.map m = xs.map m' :=
  List.map_congr_left fun x hx => part x hx fun e he => h e (List.mem_flatMap.2 ⟨x, hx, he⟩)

/-- An optional part is mapped alike by functions that agree on it. -/
theorem optionPart_congr {α β : Type} {c : α → List ε} {m m' : α → β} {f g : ε → δ} {o : Option α}
    (part : ∀ x, (∀ e ∈ c x, f e = g e) → m x = m' x)
    (h : ∀ e ∈ o.toList.flatMap c, f e = g e) : o.map m = o.map m' :=
  Option.map_congr fun x hx => part x fun e he =>
    h e (List.mem_flatMap.2 ⟨x, Option.mem_toList.2 hx, he⟩)

/-- The value of an option is smaller than the option. -/
theorem sizeOf_lt_of_mem_toList [SizeOf ε] {o : Option ε} {e : ε} (h : e ∈ o.toList) :
    sizeOf e < sizeOf o := by
  cases o with
  | none => simp at h
  | some x => simp_all

/-- What is smaller than a part of a list is smaller than the list. -/
theorem sizeOf_lt_of_mem_flatMap {α : Type} [SizeOf ε] [SizeOf α] {c : α → List ε} {xs : List α}
    {e : ε} (part : ∀ x ∈ xs, e ∈ c x → sizeOf e < sizeOf x) (h : e ∈ xs.flatMap c) :
    sizeOf e < sizeOf xs := by
  obtain ⟨x, hx, he⟩ := List.mem_flatMap.1 h
  have := List.sizeOf_lt_of_mem hx
  have := part x hx he
  omega

/-- What is smaller than an optional part is smaller than the option. -/
theorem sizeOf_lt_of_mem_optionPart {α : Type} [SizeOf ε] [SizeOf α] {c : α → List ε}
    {o : Option α} {e : ε} (part : ∀ x, e ∈ c x → sizeOf e < sizeOf x)
    (h : e ∈ o.toList.flatMap c) : sizeOf e < sizeOf o := by
  cases o with
  | none => simp at h
  | some x =>
    have := part x (by simpa using h)
    simp only [Option.some.sizeOf_spec]
    omega

/-! ## Keys, keeps and frames -/

namespace OrderKey

theorem map_map (g : δ → φ) (f : ε → δ) (key : OrderKey ε) :
    (key.map f).map g = key.map (g ∘ f) := rfl

theorem map_id : OrderKey.map (id : ε → ε) = id := rfl

theorem children_map (f : ε → δ) (key : OrderKey ε) :
    (key.map f).children = key.children.map f := rfl

theorem map_congr {f g : ε → δ} {key : OrderKey ε} (h : ∀ e ∈ key.children, f e = g e) :
    key.map f = key.map g := by
  simp [map, h key.expr (by simp [children])]

theorem sizeOf_lt [SizeOf ε] {key : OrderKey ε} {e : ε} (h : e ∈ key.children) :
    sizeOf e < sizeOf key := by
  cases key
  simp only [children, List.mem_singleton] at h
  subst h
  simp only [mk.sizeOf_spec]
  omega

end OrderKey

namespace Keep

theorem map_map (g : δ → φ) (f : ε → δ) (keep : Keep ε) :
    (keep.map f).map g = keep.map (g ∘ f) := by
  simp [map, Function.comp_def, OrderKey.map_map]

theorem map_id : Keep.map (id : ε → ε) = id := by
  funext keep
  simp [map, OrderKey.map_id]

theorem children_map (f : ε → δ) (keep : Keep ε) :
    (keep.map f).children = keep.children.map f := by
  simp [map, children, List.flatMap_map, List.map_flatMap, OrderKey.children_map]

theorem map_congr {f g : ε → δ} {keep : Keep ε} (h : ∀ e ∈ keep.children, f e = g e) :
    keep.map f = keep.map g := by
  simp only [map, listMap_congr (fun _ _ => OrderKey.map_congr) h]

theorem sizeOf_lt [SizeOf ε] {keep : Keep ε} {e : ε} (h : e ∈ keep.children) :
    sizeOf e < sizeOf keep := by
  cases keep
  have := sizeOf_lt_of_mem_flatMap (fun _ _ => OrderKey.sizeOf_lt) h
  simp only [mk.sizeOf_spec] at *
  omega

end Keep

namespace FrameBound

theorem map_map (g : δ → φ) (f : ε → δ) (bound : FrameBound ε) :
    (bound.map f).map g = bound.map (g ∘ f) := by
  cases bound <;> rfl

theorem map_id : FrameBound.map (id : ε → ε) = id := by
  funext bound
  cases bound <;> rfl

theorem children_map (f : ε → δ) (bound : FrameBound ε) :
    (bound.map f).children = bound.children.map f := by
  cases bound <;> rfl

theorem map_congr {f g : ε → δ} {bound : FrameBound ε} (h : ∀ e ∈ bound.children, f e = g e) :
    bound.map f = bound.map g := by
  cases bound <;> simp_all [map, children]

theorem sizeOf_lt [SizeOf ε] {bound : FrameBound ε} {e : ε} (h : e ∈ bound.children) :
    sizeOf e < sizeOf bound := by
  cases bound <;> simp_all [children]

end FrameBound

namespace FrameExtent

theorem map_map (g : δ → φ) (f : ε → δ) (extent : FrameExtent ε) :
    (extent.map f).map g = extent.map (g ∘ f) := by
  cases extent <;> simp [map, FrameBound.map_map]

theorem map_id : FrameExtent.map (id : ε → ε) = id := by
  funext extent
  cases extent <;> simp [map, FrameBound.map_id]

theorem children_map (f : ε → δ) (extent : FrameExtent ε) :
    (extent.map f).children = extent.children.map f := by
  cases extent <;> simp [map, children, FrameBound.children_map]

theorem map_congr {f g : ε → δ} {extent : FrameExtent ε}
    (h : ∀ e ∈ extent.children, f e = g e) : extent.map f = extent.map g := by
  cases extent with
  | single bound => simp only [map, FrameBound.map_congr h]
  | between start stop =>
    simp only [children, List.forall_mem_append] at h
    simp only [map, FrameBound.map_congr h.1, FrameBound.map_congr h.2]

theorem sizeOf_lt [SizeOf ε] {extent : FrameExtent ε} {e : ε} (h : e ∈ extent.children) :
    sizeOf e < sizeOf extent := by
  cases extent with
  | single bound =>
    have := FrameBound.sizeOf_lt h
    simp only [single.sizeOf_spec]
    omega
  | between start stop =>
    rcases List.mem_append.1 h with h | h <;>
    · have := FrameBound.sizeOf_lt h
      simp only [between.sizeOf_spec]
      omega

end FrameExtent

namespace Frame

theorem map_map (g : δ → φ) (f : ε → δ) (frame : Frame ε) :
    (frame.map f).map g = frame.map (g ∘ f) := by
  simp [map, FrameExtent.map_map]

theorem map_id : Frame.map (id : ε → ε) = id := by
  funext frame
  simp [map, FrameExtent.map_id]

theorem children_map (f : ε → δ) (frame : Frame ε) :
    (frame.map f).children = frame.children.map f :=
  FrameExtent.children_map f frame.extent

theorem map_congr {f g : ε → δ} {frame : Frame ε} (h : ∀ e ∈ frame.children, f e = g e) :
    frame.map f = frame.map g := by
  simp only [map, FrameExtent.map_congr h]

theorem sizeOf_lt [SizeOf ε] {frame : Frame ε} {e : ε} (h : e ∈ frame.children) :
    sizeOf e < sizeOf frame := by
  cases frame
  have := FrameExtent.sizeOf_lt h
  simp only [mk.sizeOf_spec] at *
  omega

end Frame

/-! ## Calls and cases -/

namespace When

theorem map_map (g : δ → φ) (f : ε → δ) (branch : When ε) :
    (branch.map f).map g = branch.map (g ∘ f) := rfl

theorem map_id : When.map (id : ε → ε) = id := rfl

theorem children_map (f : ε → δ) (branch : When ε) :
    (branch.map f).children = branch.children.map f := rfl

theorem map_congr {f g : ε → δ} {branch : When ε} (h : ∀ e ∈ branch.children, f e = g e) :
    branch.map f = branch.map g := by
  simp [map, h branch.condition (by simp [children]), h branch.result (by simp [children])]

theorem sizeOf_lt [SizeOf ε] {branch : When ε} {e : ε} (h : e ∈ branch.children) :
    sizeOf e < sizeOf branch := by
  cases branch
  simp only [children, List.mem_cons, List.not_mem_nil, or_false] at h
  rcases h with rfl | rfl <;>
  · simp only [mk.sizeOf_spec]
    omega

end When

namespace Case

theorem map_map (g : δ → φ) (f : ε → δ) (c : Case ε) : (c.map f).map g = c.map (g ∘ f) := by
  simp [map, Function.comp_def, When.map_map]

theorem map_id : Case.map (id : ε → ε) = id := by
  funext c
  simp [map, When.map_id]

theorem children_map (f : ε → δ) (c : Case ε) : (c.map f).children = c.children.map f := by
  simp [map, children, Option.toList_map, List.flatMap_map, List.map_flatMap, When.children_map]

theorem map_congr {f g : ε → δ} {c : Case ε} (h : ∀ e ∈ c.children, f e = g e) :
    c.map f = c.map g := by
  simp only [children, List.forall_mem_append, Option.mem_toList] at h
  obtain ⟨⟨ho, hb⟩, he⟩ := h
  simp only [map, Option.map_congr ho, listMap_congr (fun _ _ => When.map_congr) hb,
    Option.map_congr he]

theorem sizeOf_lt [SizeOf ε] {c : Case ε} {e : ε} (h : e ∈ c.children) :
    sizeOf e < sizeOf c := by
  cases c
  simp only [children, List.mem_append] at h
  simp only [mk.sizeOf_spec]
  rcases h with (h | h) | h
  · have := sizeOf_lt_of_mem_toList h
    omega
  · have := sizeOf_lt_of_mem_flatMap (fun _ _ => When.sizeOf_lt) h
    omega
  · have := sizeOf_lt_of_mem_toList h
    omega

end Case

namespace Call

theorem map_map (g : δ → φ) (f : ε → δ) (c : Call ε) : (c.map f).map g = c.map (g ∘ f) := by
  simp [map, Function.comp_def, Keep.map_map]

theorem map_id : Call.map (id : ε → ε) = id := by
  funext c
  simp [map, Keep.map_id]

theorem children_map (f : ε → δ) (c : Call ε) : (c.map f).children = c.children.map f := by
  simp [map, children, Option.toList_map, List.flatMap_map, List.map_flatMap, Keep.children_map,
    List.map_flatten]

theorem map_congr {f g : ε → δ} {c : Call ε} (h : ∀ e ∈ c.children, f e = g e) :
    c.map f = c.map g := by
  simp only [children, List.forall_mem_append] at h
  obtain ⟨ha, hk⟩ := h
  have ha' : c.arguments.map (List.map f) = c.arguments.map (List.map g) :=
    optionPart_congr (c := id) (fun _ => List.map_congr_left) (by simpa using ha)
  simp only [map, ha', optionPart_congr (fun _ => Keep.map_congr) hk]

theorem sizeOf_lt [SizeOf ε] {c : Call ε} {e : ε} (h : e ∈ c.children) :
    sizeOf e < sizeOf c := by
  cases c
  simp only [children, List.mem_append] at h
  simp only [mk.sizeOf_spec]
  rcases h with h | h
  · have := sizeOf_lt_of_mem_optionPart (c := id) (fun _ => List.sizeOf_lt_of_mem)
      (by simpa using h)
    omega
  · have := sizeOf_lt_of_mem_optionPart (fun _ => Keep.sizeOf_lt) h
    omega

end Call

namespace Analytic

theorem map_map (g : δ → φ) (f : ε → δ) (a : Analytic ε) :
    (a.map f).map g = a.map (g ∘ f) := by
  simp [map, Function.comp_def, Keep.map_map, OrderKey.map_map, Frame.map_map]

theorem map_id : Analytic.map (id : ε → ε) = id := by
  funext a
  simp [map, Keep.map_id, OrderKey.map_id, Frame.map_id]

theorem children_map (f : ε → δ) (a : Analytic ε) :
    (a.map f).children = a.children.map f := by
  simp [map, children, Option.toList_map, List.flatMap_map, List.map_flatMap, Keep.children_map,
    OrderKey.children_map, Frame.children_map]

theorem map_congr {f g : ε → δ} {a : Analytic ε} (h : ∀ e ∈ a.children, f e = g e) :
    a.map f = a.map g := by
  simp only [children, List.forall_mem_append, Option.mem_toList] at h
  obtain ⟨⟨⟨⟨⟨⟨ha, ho⟩, hd⟩, hk⟩, hp⟩, hs⟩, hf⟩ := h
  simp only [map, Option.map_congr ha, Option.map_congr ho, Option.map_congr hd,
    optionPart_congr (fun _ => Keep.map_congr) hk, List.map_congr_left hp,
    listMap_congr (fun _ _ => OrderKey.map_congr) hs,
    optionPart_congr (fun _ => Frame.map_congr) hf]

theorem sizeOf_lt [SizeOf ε] {a : Analytic ε} {e : ε} (h : e ∈ a.children) :
    sizeOf e < sizeOf a := by
  cases a
  simp only [children, List.mem_append] at h
  simp only [mk.sizeOf_spec]
  rcases h with (((((h | h) | h) | h) | h) | h) | h
  · have := sizeOf_lt_of_mem_toList h
    omega
  · have := sizeOf_lt_of_mem_toList h
    omega
  · have := sizeOf_lt_of_mem_toList h
    omega
  · have := sizeOf_lt_of_mem_optionPart (fun _ => Keep.sizeOf_lt) h
    omega
  · have := List.sizeOf_lt_of_mem h
    omega
  · have := sizeOf_lt_of_mem_flatMap (fun _ _ => OrderKey.sizeOf_lt) h
    omega
  · have := sizeOf_lt_of_mem_optionPart (fun _ => Frame.sizeOf_lt) h
    omega

end Analytic

namespace GroupConcat

theorem map_map (g : δ → φ) (f : ε → δ) (c : GroupConcat ε) :
    (c.map f).map g = c.map (g ∘ f) := by
  simp [map, Function.comp_def, OrderKey.map_map]

theorem map_id : GroupConcat.map (id : ε → ε) = id := by
  funext c
  simp [map, OrderKey.map_id]

theorem children_map (f : ε → δ) (c : GroupConcat ε) :
    (c.map f).children = c.children.map f := by
  simp [map, children, List.flatMap_map, List.map_flatMap, OrderKey.children_map]

theorem map_congr {f g : ε → δ} {c : GroupConcat ε} (h : ∀ e ∈ c.children, f e = g e) :
    c.map f = c.map g := by
  simp only [children, List.forall_mem_append] at h
  simp only [map, List.map_congr_left h.1, listMap_congr (fun _ _ => OrderKey.map_congr) h.2]

theorem sizeOf_lt [SizeOf ε] {c : GroupConcat ε} {e : ε} (h : e ∈ c.children) :
    sizeOf e < sizeOf c := by
  cases c
  simp only [children, List.mem_append] at h
  simp only [mk.sizeOf_spec]
  rcases h with h | h
  · have := List.sizeOf_lt_of_mem h
    omega
  · have := sizeOf_lt_of_mem_flatMap (fun _ _ => OrderKey.sizeOf_lt) h
    omega

end GroupConcat

/-! ## Queries -/

namespace SelectItem

theorem map_map (g : δ → φ) (f : ε → δ) (item : SelectItem ε) :
    (item.map f).map g = item.map (g ∘ f) := by
  cases item <;> rfl

theorem map_id : SelectItem.map (id : ε → ε) = id := by
  funext item
  cases item <;> rfl

theorem children_map (f : ε → δ) (item : SelectItem ε) :
    (item.map f).children = item.children.map f := by
  cases item <;> rfl

theorem map_congr {f g : ε → δ} {item : SelectItem ε} (h : ∀ e ∈ item.children, f e = g e) :
    item.map f = item.map g := by
  cases item <;> simp_all [map, children]

theorem sizeOf_lt [SizeOf ε] {item : SelectItem ε} {e : ε} (h : e ∈ item.children) :
    sizeOf e < sizeOf item := by
  cases item with
  | expr x label =>
    simp only [children, List.mem_singleton] at h
    subst h
    simp only [expr.sizeOf_spec]
    omega
  | _ => simp [children] at h

end SelectItem

namespace Select

theorem map_map (g : δ → φ) (f : ε → δ) (select : Select ε) :
    (select.map f).map g = select.map (g ∘ f) := by
  simp [map, Function.comp_def, OrderKey.map_map, SelectItem.map_map]

theorem map_id : Select.map (id : ε → ε) = id := by
  funext select
  simp [map, OrderKey.map_id, SelectItem.map_id]

theorem children_map (f : ε → δ) (select : Select ε) :
    (select.map f).children = select.children.map f := by
  simp [map, children, Option.toList_map, List.flatMap_map, List.map_flatMap, OrderKey.children_map,
    SelectItem.children_map]

theorem map_congr {f g : ε → δ} {select : Select ε} (h : ∀ e ∈ select.children, f e = g e) :
    select.map f = select.map g := by
  simp only [children, List.forall_mem_append, Option.mem_toList] at h
  obtain ⟨⟨⟨⟨⟨hi, hc⟩, hg⟩, hh⟩, ho⟩, hl⟩ := h
  simp only [map, listMap_congr (fun _ _ => SelectItem.map_congr) hi, Option.map_congr hc,
    List.map_congr_left hg, Option.map_congr hh, listMap_congr (fun _ _ => OrderKey.map_congr) ho,
    Option.map_congr hl]

theorem sizeOf_lt [SizeOf ε] {select : Select ε} {e : ε} (h : e ∈ select.children) :
    sizeOf e < sizeOf select := by
  cases select
  simp only [children, List.mem_append] at h
  simp only [mk.sizeOf_spec]
  rcases h with ((((h | h) | h) | h) | h) | h
  · have := sizeOf_lt_of_mem_flatMap (fun _ _ => SelectItem.sizeOf_lt) h
    omega
  · have := sizeOf_lt_of_mem_toList h
    omega
  · have := List.sizeOf_lt_of_mem h
    omega
  · have := sizeOf_lt_of_mem_toList h
    omega
  · have := sizeOf_lt_of_mem_flatMap (fun _ _ => OrderKey.sizeOf_lt) h
    omega
  · have := sizeOf_lt_of_mem_toList h
    omega

end Select

namespace Query

theorem map_map (g : δ → φ) (f : ε → δ) (query : Query ε) :
    (query.map f).map g = query.map (g ∘ f) := by
  induction query with
  | plain select => simp only [map, Select.map_map]
  | compound op all left right ihl ihr => simp only [map, ihl, ihr]

theorem map_id : Query.map (id : ε → ε) = id := by
  funext query
  induction query with
  | plain select => simp only [map, Select.map_id, id]
  | compound op all left right ihl ihr => simp only [map, ihl, ihr, id]

theorem children_map (f : ε → δ) (query : Query ε) :
    (query.map f).children = query.children.map f := by
  induction query with
  | plain select => exact Select.children_map f select
  | compound op all left right ihl ihr => simp only [map, children, ihl, ihr, List.map_append]

theorem map_congr {f g : ε → δ} {query : Query ε} (h : ∀ e ∈ query.children, f e = g e) :
    query.map f = query.map g := by
  induction query with
  | plain select => simp only [map, Select.map_congr h]
  | compound op all left right ihl ihr =>
    simp only [children, List.forall_mem_append] at h
    simp only [map, ihl h.1, ihr h.2]

theorem sizeOf_lt [SizeOf ε] {query : Query ε} {e : ε} (h : e ∈ query.children) :
    sizeOf e < sizeOf query := by
  induction query with
  | plain select =>
    have := Select.sizeOf_lt h
    simp only [plain.sizeOf_spec]
    omega
  | compound op all left right ihl ihr =>
    simp only [compound.sizeOf_spec]
    rcases List.mem_append.1 h with h | h
    · have := ihl h
      omega
    · have := ihr h
      omega

end Query

namespace CommonTable

theorem map_map (g : δ → φ) (f : ε → δ) (table : CommonTable ε) :
    (table.map f).map g = table.map (g ∘ f) := by
  simp only [map, Query.map_map]

theorem map_id : CommonTable.map (id : ε → ε) = id := by
  funext table
  simp [map, Query.map_id]

theorem children_map (f : ε → δ) (table : CommonTable ε) :
    (table.map f).children = table.children.map f :=
  Query.children_map f table.query

theorem map_congr {f g : ε → δ} {table : CommonTable ε} (h : ∀ e ∈ table.children, f e = g e) :
    table.map f = table.map g := by
  simp only [map, Query.map_congr h]

theorem sizeOf_lt [SizeOf ε] {table : CommonTable ε} {e : ε} (h : e ∈ table.children) :
    sizeOf e < sizeOf table := by
  cases table
  have := Query.sizeOf_lt h
  simp only [mk.sizeOf_spec] at *
  omega

end CommonTable

namespace SubQuery

theorem map_map (g : δ → φ) (f : ε → δ) (sub : SubQuery ε) :
    (sub.map f).map g = sub.map (g ∘ f) := by
  simp [map, Function.comp_def, Query.map_map, CommonTable.map_map]

theorem map_id : SubQuery.map (id : ε → ε) = id := by
  funext sub
  simp [map, Query.map_id, CommonTable.map_id]

theorem children_map (f : ε → δ) (sub : SubQuery ε) :
    (sub.map f).children = sub.children.map f := by
  simp [map, children, List.flatMap_map, List.map_flatMap, Query.children_map,
    CommonTable.children_map]

theorem map_congr {f g : ε → δ} {sub : SubQuery ε} (h : ∀ e ∈ sub.children, f e = g e) :
    sub.map f = sub.map g := by
  simp only [children, List.forall_mem_append] at h
  simp only [map, listMap_congr (fun _ _ => CommonTable.map_congr) h.1, Query.map_congr h.2]

theorem sizeOf_lt [SizeOf ε] {sub : SubQuery ε} {e : ε} (h : e ∈ sub.children) :
    sizeOf e < sizeOf sub := by
  cases sub
  simp only [children, List.mem_append] at h
  simp only [mk.sizeOf_spec]
  rcases h with h | h
  · have := sizeOf_lt_of_mem_flatMap (fun _ _ => CommonTable.sizeOf_lt) h
    omega
  · have := Query.sizeOf_lt h
    omega

end SubQuery

/-! ## Membership -/

namespace Items

theorem map_map (g : δ → φ) (f : ε → δ) (items : Items ε) :
    (items.map f).map g = items.map (g ∘ f) := by
  cases items <;> simp [map, Function.comp_def, SubQuery.map_map]

theorem map_id : Items.map (id : ε → ε) = id := by
  funext items
  cases items <;> simp [map, SubQuery.map_id]

theorem children_map (f : ε → δ) (items : Items ε) :
    (items.map f).children = items.children.map f := by
  cases items <;> simp [map, children, List.map_flatten, SubQuery.children_map]

theorem map_congr {f g : ε → δ} {items : Items ε} (h : ∀ e ∈ items.children, f e = g e) :
    items.map f = items.map g := by
  cases items with
  | list values => exact congrArg list (List.map_congr_left h)
  | rows lists =>
    have h' : lists.map (List.map f) = lists.map (List.map g) :=
      listMap_congr (c := id) (fun _ _ => List.map_congr_left) (by simpa [children] using h)
    simp only [map, h']
  | query sub => simp only [map, SubQuery.map_congr h]

theorem sizeOf_lt [SizeOf ε] {items : Items ε} {e : ε} (h : e ∈ items.children) :
    sizeOf e < sizeOf items := by
  cases items with
  | list values =>
    have : sizeOf e < sizeOf values := List.sizeOf_lt_of_mem h
    simp only [list.sizeOf_spec]
    omega
  | rows lists =>
    have := sizeOf_lt_of_mem_flatMap (c := id) (fun _ _ => List.sizeOf_lt_of_mem)
      (by simpa [children] using h)
    simp only [rows.sizeOf_spec]
    omega
  | query sub =>
    have := SubQuery.sizeOf_lt h
    simp only [query.sizeOf_spec]
    omega

end Items

namespace Member

theorem map_map (g : δ → φ) (f : ε → δ) (member : Member ε) :
    (member.map f).map g = member.map (g ∘ f) := by
  cases member <;> simp [map, Items.map_map]

theorem map_id : Member.map (id : ε → ε) = id := by
  funext member
  cases member <;> simp [map, Items.map_id]

theorem children_map (f : ε → δ) (member : Member ε) :
    (member.map f).children = member.children.map f := by
  cases member <;> simp [map, children, Items.children_map]

theorem map_congr {f g : ε → δ} {member : Member ε} (h : ∀ e ∈ member.children, f e = g e) :
    member.map f = member.map g := by
  cases member with
  | expr e => simp [map, h e (by simp [children])]
  | items is => simp only [map, Items.map_congr h]

theorem sizeOf_lt [SizeOf ε] {member : Member ε} {e : ε} (h : e ∈ member.children) :
    sizeOf e < sizeOf member := by
  cases member with
  | expr x => simp_all [children]
  | items is =>
    have := Items.sizeOf_lt h
    simp only [items.sizeOf_spec]
    omega

end Member

end SqlText
