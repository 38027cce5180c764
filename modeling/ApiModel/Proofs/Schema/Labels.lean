import ApiModel.Proofs.Outcome
import ApiModel.Proofs.Scalar

/-!
# Labels of enumeration members

Vendor keywords list names and descriptions in parallel to the values of an enumeration. A member
is made of each text or number where it stands for the first time, and then the members take their
labels by their own positions among each other, not by the places of their values.

**Theorem (`labels_of_members`).** The members stand for the values that stand at a place for the
first time, in order, and each has the label at its own position. So all members have the labels of
their values if nothing is dropped before a value that is kept, and, where no two names agree, only
then.

The places are found in one pass, by `firstsFrom`; `mem_firstsFrom` says that they are the right
ones and `distinct_firstsFrom` that the members are made of them.
-/

namespace ApiModel

namespace Enumeration

open Report

/-! ## First places of values -/

/-- The text or number that a node is. -/
def memberValue? : Node → Option Scalar
  | .scalar s => if s.isMember then some s else none
  | _ => none

/-- The text or number at a place of a list of values. -/
def valueAt? (values : List Node) (i : Nat) : Option Scalar := values[i]?.bind memberValue?

/-- A text or number stands at a place, and the same value at none before. -/
structure IsFirstPlace (values : List Node) (i : Nat) (s : Scalar) : Prop where
  stands : valueAt? values i = some s
  first : ∀ j < i, ∀ t, valueAt? values j = some t → t.same s = false

/-- The first places of values, in order, and what stands there. -/
structure FirstPlaces (values : List Node) (places : List (Nat × Scalar)) : Prop where
  ordered : places.Pairwise fun p q => p.1 < q.1
  mem_iff : ∀ i s, (i, s) ∈ places ↔ IsFirstPlace values i s

/-- The first places in a list, behind what stands in front of it. -/
def firstsFrom (front : List Node) : List Node → List (Nat × Scalar)
  | [] => []
  | n :: rest =>
    let later := firstsFrom (front ++ [n]) rest
    match memberValue? n with
    | some s => if (memberValues front).any (·.same s) then later else (front.length, s) :: later
    | none => later

variable {front rest values : List Node} {n : Node} {s t : Scalar} {i : Nat}

theorem isMember_of_memberValue? (h : memberValue? n = some s) : s.isMember = true := by
  unfold memberValue? at h
  split at h
  · split_ifs at h with hmember
    obtain rfl := Option.some.inj h
    exact hmember
  · cases h

theorem memberValues_eq (values : List Node) :
    memberValues values = values.filterMap memberValue? := rfl

theorem mem_memberValues : t ∈ memberValues values ↔ ∃ j, valueAt? values j = some t := by
  rw [memberValues_eq, List.mem_filterMap]
  constructor
  · rintro ⟨n, hn, ht⟩
    obtain ⟨j, hj⟩ := List.mem_iff_getElem?.1 hn
    exact ⟨j, Option.bind_eq_some_iff.2 ⟨n, hj, ht⟩⟩
  · rintro ⟨j, hj⟩
    obtain ⟨n, hn, ht⟩ := Option.bind_eq_some_iff.1 hj
    exact ⟨n, List.mem_of_getElem? hn, ht⟩

theorem lt_length_of_valueAt? (h : valueAt? values i = some s) : i < values.length := by
  obtain ⟨n, hn, -⟩ := Option.bind_eq_some_iff.1 h
  exact (List.getElem?_eq_some_iff.1 hn).1

theorem valueAt?_append (hi : i < front.length) :
    valueAt? (front ++ rest) i = valueAt? front i := by
  rw [valueAt?, List.getElem?_append_left hi, valueAt?]

theorem valueAt?_length : valueAt? (front ++ n :: rest) front.length = memberValue? n := by
  rw [valueAt?, List.getElem?_append_right (Nat.le_refl _), Nat.sub_self]
  rfl

/-- What stands at the end of the front stands there for the first time exactly if it is not among
the values of the front. -/
theorem isFirstPlace_length : IsFirstPlace (front ++ n :: rest) front.length s ↔
    memberValue? n = some s ∧ (memberValues front).any (·.same s) = false := by
  rw [List.any_eq_false]
  constructor
  · rintro ⟨hstands, hfirst⟩
    refine ⟨valueAt?_length.symm.trans hstands, fun t ht => ?_⟩
    obtain ⟨j, hj⟩ := mem_memberValues.1 ht
    have hlt := lt_length_of_valueAt? hj
    rw [hfirst j hlt t ((valueAt?_append hlt).trans hj)]
    exact Bool.false_ne_true
  · rintro ⟨hn, hfront⟩
    refine ⟨valueAt?_length.trans hn, fun j hj t ht => ?_⟩
    rw [valueAt?_append hj] at ht
    exact Bool.eq_false_iff.2 (hfront t (mem_memberValues.2 ⟨j, ht⟩))

theorem mem_firstsFrom_cons : (i, s) ∈ firstsFrom front (n :: rest) ↔
    (i = front.length ∧ memberValue? n = some s ∧ (memberValues front).any (·.same s) = false) ∨
      (i, s) ∈ firstsFrom (front ++ [n]) rest := by
  rw [firstsFrom]
  cases hn : memberValue? n with
  | none => simp
  | some t =>
    simp only
    split_ifs with hseen
    · refine (or_iff_right ?_).symm
      rintro ⟨-, hst, hnew⟩
      obtain rfl := Option.some.inj hst
      rw [hseen] at hnew
      cases hnew
    · rw [List.mem_cons, Prod.mk.injEq]
      refine or_congr_left ⟨?_, ?_⟩
      · rintro ⟨hi, rfl⟩
        exact ⟨hi, rfl, Bool.eq_false_iff.2 hseen⟩
      · rintro ⟨hi, hst, -⟩
        exact ⟨hi, (Option.some.inj hst).symm⟩

/-- The pass finds the first places that are not in front. -/
theorem mem_firstsFrom : (i, s) ∈ firstsFrom front rest ↔
    front.length ≤ i ∧ IsFirstPlace (front ++ rest) i s := by
  induction rest generalizing front with
  | nil =>
    rw [firstsFrom, List.append_nil]
    refine iff_of_false List.not_mem_nil ?_
    rintro ⟨hle, hfirst⟩
    exact absurd (lt_length_of_valueAt? hfirst.stands) (Nat.not_lt.2 hle)
  | cons n rest ih =>
    rw [mem_firstsFrom_cons, ih, List.append_assoc, List.singleton_append, List.length_append,
      List.length_singleton]
    constructor
    · rintro (⟨rfl, hfirst⟩ | ⟨hlt, hfirst⟩)
      · exact ⟨Nat.le_refl _, isFirstPlace_length.2 hfirst⟩
      · exact ⟨Nat.le_of_succ_le hlt, hfirst⟩
    · rintro ⟨hle, hfirst⟩
      rcases Nat.eq_or_lt_of_le hle with rfl | hlt
      · exact .inl ⟨rfl, isFirstPlace_length.1 hfirst⟩
      · exact .inr ⟨hlt, hfirst⟩

theorem ordered_firstsFrom : (firstsFrom front rest).Pairwise fun p q => p.1 < q.1 := by
  induction rest generalizing front with
  | nil => exact .nil
  | cons n rest ih =>
    have hlater : ∀ q ∈ firstsFrom (front ++ [n]) rest, front.length < q.1 := by
      rintro ⟨j, t⟩ hq
      have hle := (mem_firstsFrom.1 hq).1
      rw [List.length_append, List.length_singleton] at hle
      exact hle
    rw [firstsFrom]
    split
    · split_ifs
      · exact ih
      · exact .cons hlater ih
    · exact ih

/-- A list of values has its first places. -/
theorem firstPlaces_firstsFrom (values : List Node) :
    FirstPlaces values (firstsFrom [] values) where
  ordered := ordered_firstsFrom
  mem_iff i s := by simp [mem_firstsFrom]

/-! ## Values that are kept -/

/-- What has been kept of some values stands for all of them. -/
structure Covers (kept : List Scalar) (values : List Node) : Prop where
  sound : ∀ t ∈ kept, t ∈ memberValues values
  complete : ∀ t ∈ memberValues values, ∃ u ∈ kept, u = t ∨ u.same t = true

variable {kept : List Scalar}

theorem covers_nil : Covers [] [] := ⟨by simp, by simp [memberValues_eq]⟩

theorem isMember_of_mem (h : t ∈ memberValues values) : t.isMember = true := by
  obtain ⟨n, -, hn⟩ := List.mem_filterMap.1 (memberValues_eq values ▸ h)
  exact isMember_of_memberValue? hn

/-- A value is the same as one that has been kept exactly if it is the same as any before it. -/
theorem Covers.any_same (h : Covers kept front) (hs : s.isMember = true) :
    kept.any (·.same s) = (memberValues front).any (·.same s) := by
  rw [Bool.eq_iff_iff, List.any_eq_true, List.any_eq_true]
  constructor
  · rintro ⟨t, ht, hsame⟩
    exact ⟨t, h.sound t ht, hsame⟩
  · rintro ⟨t, ht, hsame⟩
    obtain ⟨u, hu, rfl | hut⟩ := h.complete t ht
    · exact ⟨u, hu, hsame⟩
    · have hmember := isMember_of_mem (h.sound u hu)
      exact ⟨u, hu, Scalar.same_trans hmember (isMember_of_mem ht) hs hut hsame⟩

/-- What is no member changes nothing. -/
theorem Covers.skip (h : Covers kept front) (hn : memberValue? n = none) :
    Covers kept (front ++ [n]) := by
  have hvalues : memberValues (front ++ [n]) = memberValues front := by
    simp [memberValues_eq, hn]
  exact ⟨hvalues ▸ h.sound, hvalues ▸ h.complete⟩

theorem mem_memberValues_concat (hn : memberValue? n = some s) :
    t ∈ memberValues (front ++ [n]) ↔ t ∈ memberValues front ∨ t = s := by
  simp [memberValues_eq, hn]

/-- A value that is the same as one that has been kept need not be kept. -/
theorem Covers.drop (h : Covers kept front) (hn : memberValue? n = some s)
    (hseen : kept.any (·.same s) = true) : Covers kept (front ++ [n]) where
  sound t ht := (mem_memberValues_concat hn).2 (.inl (h.sound t ht))
  complete t ht := by
    obtain ⟨u, hu, hus⟩ := List.any_eq_true.1 hseen
    rcases (mem_memberValues_concat hn).1 ht with ht | rfl
    · exact h.complete t ht
    · exact ⟨u, hu, .inr hus⟩

theorem Covers.keep (h : Covers kept front) (hn : memberValue? n = some s) :
    Covers (kept ++ [s]) (front ++ [n]) where
  sound t ht := by
    rw [mem_memberValues_concat hn]
    exact (List.mem_append.1 ht).imp (h.sound t) List.mem_singleton.1
  complete t ht := by
    rcases (mem_memberValues_concat hn).1 ht with ht | rfl
    · obtain ⟨u, hu, hut⟩ := h.complete t ht
      exact ⟨u, List.mem_append_left _ hu, hut⟩
    · exact ⟨t, List.mem_append_right _ List.mem_cons_self, .inl rfl⟩

/-- The values that are kept are those at the first places. -/
theorem distinct_firstsFrom (h : Covers kept front) :
    (distinct kept (memberValues rest)).outcome = .ok ((firstsFrom front rest).map (·.2)) := by
  induction rest generalizing kept front with
  | nil => rfl
  | cons n rest ih =>
    cases hn : memberValue? n with
    | none =>
      rw [firstsFrom, hn, memberValues_eq, List.filterMap_cons_none hn]
      exact ih (h.skip hn)
    | some s =>
      have hseen := h.any_same (isMember_of_memberValue? hn)
      rw [firstsFrom, hn, memberValues_eq, List.filterMap_cons_some hn, distinct, hseen]
      simp only
      split_ifs with hdrop
      · rw [outcome_bind, outcome_note]
        exact ih (h.drop hn (hseen.trans hdrop))
      · exact bind_eq_ok.2 ⟨_, ih (h.keep hn), rfl⟩

/-- The members of a list are made of what stands at the first places. -/
theorem outcome_ofNode (values : List Node) : (ofNode (.list values)).outcome =
    .ok ((firstsFrom [] values).map fun p => p.2.toMember) := by
  refine bind_eq_ok.2 ⟨_, distinct_firstsFrom covers_nil, ?_⟩
  rw [outcome_pure, List.map_map]
  rfl

/-! ## Labels -/

/-- A keyword of a schema lists a label for each of some values, and none of them is empty. -/
structure Labels (schema : Node) (keyword : String) (values : List Node) (labels : List String) :
    Prop where
  field : schema.field keyword = .list (labels.map .text)
  length : labels.length = values.length
  nonempty : ∀ label ∈ labels, label ≠ ""

/-- A keyword labels all values, or it is not there and labels none. -/
def LabelsOrNone (schema : Node) (keyword : String) (values : List Node) (labels : List String) :
    Prop :=
  Labels schema keyword values labels ∨ schema.field keyword = .null ∧ labels = []

variable {schema : Node} {keyword : String} {names descriptions labels : List String}
  {places : List (Nat × Scalar)} {members : List EnumMember} {k : Nat}

theorem outcome_vendorTexts (h : LabelsOrNone schema keyword values labels) :
    (vendorTexts schema keyword).outcome = .ok labels := by
  rw [vendorTexts]
  rcases h with ⟨hfield, -, -⟩ | ⟨hfield, rfl⟩
  · rw [hfield]
    cases labels with
    | nil => rfl
    | cons label labels =>
      have htexts : Node.texts ((label :: labels).map .text) = label :: labels := by
        simp [Node.texts, Node.text?, List.filterMap_map, Function.comp_def]
      exact map_eq_ok.2 ⟨_, rfl, htexts⟩
  · rw [hfield]
    rfl

theorem textAt?_eq (h : ∀ label ∈ labels, label ≠ "") (k : Nat) :
    textAt? labels k = labels[k]? := by
  rw [textAt?]
  cases hlabel : labels[k]? with
  | none => rfl
  | some label => simp [h label (List.mem_of_getElem? hlabel)]

theorem LabelsOrNone.nonempty (h : LabelsOrNone schema keyword values labels) :
    ∀ label ∈ labels, label ≠ "" := by
  rcases h with h | ⟨-, rfl⟩
  · exact h.nonempty
  · simp

/-- A member is made of a value, whatever its labels are. -/
def StandsFor (m : EnumMember) (s : Scalar) : Prop :=
  m.value = s.toMember.value ∧ m.type = s.toMember.type

/-- A member has the labels at a position, if there are any. -/
def HasLabelsAt (names descriptions : List String) (k : Nat) (m : EnumMember) : Prop :=
  names[k]? = some m.name ∧ descriptions[k]? = m.description

/-- Every member stands for the value at its place and has the labels at its own position. -/
structure MadeOf (places : List (Nat × Scalar)) (names descriptions : List String)
    (members : List EnumMember) : Prop where
  length : members.length = places.length
  stands (k i : Nat) (s : Scalar) (m : EnumMember) :
    places[k]? = some (i, s) → members[k]? = some m → StandsFor m s
  labelled (k : Nat) (m : EnumMember) : members[k]? = some m → HasLabelsAt names descriptions k m

/-- Every member has the labels at the first place of its value. -/
def Aligned (places : List (Nat × Scalar)) (names descriptions : List String)
    (members : List EnumMember) : Prop :=
  ∀ (k i : Nat) (s : Scalar) (m : EnumMember), places[k]? = some (i, s) → members[k]? = some m →
    HasLabelsAt names descriptions i m

/-- Nothing is dropped before a value that is kept. -/
def GapFree (values : List Node) : Prop :=
  ∀ i s, IsFirstPlace values i s → ∀ j < i, ∃ t, IsFirstPlace values j t

/-! ## Positions and places -/

theorem FirstPlaces.lt_of_lt (h : FirstPlaces values places) {l j : Nat} (hkl : k < l)
    (hk : places[k]? = some (i, s)) (hl : places[l]? = some (j, t)) : i < j := by
  obtain ⟨hk', hki⟩ := List.getElem?_eq_some_iff.1 hk
  obtain ⟨hl', hlj⟩ := List.getElem?_eq_some_iff.1 hl
  have hlt := List.pairwise_iff_getElem.1 h.ordered k l hk' hl' hkl
  rwa [hki, hlj] at hlt

/-- A value does not move behind its place. -/
theorem FirstPlaces.le (h : FirstPlaces values places) (hk : places[k]? = some (i, s)) : k ≤ i := by
  induction k generalizing i s with
  | zero => exact Nat.zero_le i
  | succ k ih =>
    obtain ⟨hlt, -⟩ := List.getElem?_eq_some_iff.1 hk
    have hprevious : places[k]? = some places[k] := List.getElem?_eq_getElem (Nat.lt_of_succ_lt hlt)
    exact Nat.lt_of_le_of_lt (ih hprevious) (h.lt_of_lt k.lt_succ_self hprevious hk)

theorem FirstPlaces.lt_length (h : FirstPlaces values places) (hk : places[k]? = some (i, s)) :
    i < values.length :=
  lt_length_of_valueAt? ((h.mem_iff i s).1 (List.mem_of_getElem? hk)).stands

/-- Nothing is dropped before a value that is kept exactly if all values that are kept stay at their
places. -/
theorem FirstPlaces.gapFree_iff (h : FirstPlaces values places) :
    GapFree values ↔ ∀ (k i : Nat) (s : Scalar), places[k]? = some (i, s) → i = k := by
  constructor
  · intro hgaps k
    induction k using Nat.strongRecOn with
    | _ k ih =>
      intro i s hk
      by_contra hne
      have hlt : k < i := Nat.lt_of_le_of_ne (h.le hk) (Ne.symm hne)
      -- The place `k` is a first one too, so it belongs to a position before `k`.
      obtain ⟨t, ht⟩ := hgaps i s ((h.mem_iff i s).1 (List.mem_of_getElem? hk)) k hlt
      obtain ⟨l, hl⟩ := List.mem_iff_getElem?.1 ((h.mem_iff k t).2 ht)
      rcases Nat.eq_or_lt_of_le (h.le hl) with rfl | hlk
      · rw [hk] at hl
        cases hl
        exact hne rfl
      · exact Nat.ne_of_gt hlk (ih l hlk k t hl)
  · intro hplaces i s hi j hj
    obtain ⟨k, hk⟩ := List.mem_iff_getElem?.1 ((h.mem_iff i s).2 hi)
    obtain rfl := hplaces k i s hk
    obtain ⟨hlt, -⟩ := List.getElem?_eq_some_iff.1 hk
    have hplace : places[j]? = some (places[j].1, places[j].2) :=
      List.getElem?_eq_getElem (Nat.lt_trans hj hlt)
    have hstays := hplaces j _ _ hplace
    rw [hstays] at hplace
    exact ⟨_, (h.mem_iff j _).1 (List.mem_of_getElem? hplace)⟩

/-! ## Members and their labels -/

theorem description_toMember (s : Scalar) : s.toMember.description = none := by
  cases s <;> rfl

/-- What is annotated at a position. -/
theorem getElem?_annotate {m : EnumMember}
    (h : (annotate names descriptions members)[k]? = some m) :
    ∃ m₀, members[k]? = some m₀ ∧
      m = { m₀ with
        name := (textAt? names k).getD m₀.name
        description := (textAt? descriptions k).or m₀.description } := by
  rw [annotate, List.getElem?_mapIdx, Option.map_eq_some_iff] at h
  obtain ⟨m₀, hm₀, rfl⟩ := h
  exact ⟨m₀, hm₀, rfl⟩

/-- The members of a list of values that a schema labels. -/
theorem madeOf_annotate (h : FirstPlaces values places) (hlength : names.length = values.length)
    (hnames : ∀ name ∈ names, name ≠ "")
    (hdescriptions : ∀ description ∈ descriptions, description ≠ "") :
    MadeOf places names descriptions
      (annotate names descriptions (places.map fun p => p.2.toMember)) where
  length := by simp [annotate]
  stands k i s m hk hm := by
    obtain ⟨m₀, hm₀, rfl⟩ := getElem?_annotate hm
    rw [List.getElem?_map, hk, Option.map_some] at hm₀
    obtain rfl := Option.some.inj hm₀
    exact ⟨rfl, rfl⟩
  labelled k m hm := by
    obtain ⟨m₀, hm₀, rfl⟩ := getElem?_annotate hm
    rw [List.getElem?_map, Option.map_eq_some_iff] at hm₀
    obtain ⟨⟨i, s⟩, hk, rfl⟩ := hm₀
    have hlt : k < names.length := by
      rw [hlength]
      exact Nat.lt_of_le_of_lt (h.le hk) (h.lt_length hk)
    simp only [HasLabelsAt, textAt?_eq hnames, textAt?_eq hdescriptions, description_toMember,
      Option.or_none, List.getElem?_eq_getElem hlt, Option.getD_some, and_self]

/-- Members are aligned if they stay at the places of their values. -/
theorem MadeOf.aligned (hmade : MadeOf places names descriptions members)
    (h : FirstPlaces values places) (hgaps : GapFree values) :
    Aligned places names descriptions members := by
  intro k i s m hk hm
  obtain rfl := h.gapFree_iff.1 hgaps k i s hk
  exact hmade.labelled i m hm

/-- Members whose names all differ are aligned only if they stay at the places of their values. -/
theorem MadeOf.gapFree (hmade : MadeOf places names descriptions members)
    (h : FirstPlaces values places) (hnames : names.Nodup)
    (haligned : Aligned places names descriptions members) : GapFree values := by
  rw [h.gapFree_iff]
  intro k i s hk
  obtain ⟨hlt, -⟩ := List.getElem?_eq_some_iff.1 hk
  obtain ⟨m, hm⟩ : ∃ m, members[k]? = some m := ⟨_, List.getElem?_eq_getElem (hmade.length ▸ hlt)⟩
  obtain ⟨hi, -⟩ := List.getElem?_eq_some_iff.1 (haligned k i s _ hk hm).1
  have hsame : names[i]? = names[k]? :=
    (haligned k i s _ hk hm).1.trans (hmade.labelled k _ hm).1.symm
  exact (List.getElem?_inj hi hnames).1 hsame

/-- The members of an enumeration stand for the values that stand at a place of its list for the
first time, in order, and have the labels at their own positions. They have those at the places of
their values if nothing is dropped before a value that is kept, and with names that all differ only
then. -/
theorem labels_of_members (hvalues : schema.field "enum" = .list values)
    (hnames : Labels schema "x-enum-varnames" values names)
    (hdescriptions : LabelsOrNone schema "x-enum-descriptions" values descriptions) :
    ∃ members places, (ofNode (schema.field "enum") >>= extend schema).outcome = .ok members ∧
      FirstPlaces values places ∧ MadeOf places names descriptions members ∧
      (GapFree values → Aligned places names descriptions members) ∧
      (names.Nodup → Aligned places names descriptions members → GapFree values) := by
  have hplaces := firstPlaces_firstsFrom values
  have hmade := madeOf_annotate hplaces hnames.length hnames.nonempty hdescriptions.nonempty
  have hextend : (extend schema ((firstsFrom [] values).map fun p => p.2.toMember)).outcome =
      .ok (annotate names descriptions ((firstsFrom [] values).map fun p => p.2.toMember)) :=
    bind_eq_ok.2 ⟨names, outcome_vendorTexts (.inl hnames),
      bind_eq_ok.2 ⟨descriptions, outcome_vendorTexts hdescriptions, rfl⟩⟩
  refine ⟨_, _, ?_, hplaces, hmade, hmade.aligned hplaces, hmade.gapFree hplaces⟩
  rw [hvalues]
  exact bind_eq_ok.2 ⟨_, outcome_ofNode values, hextend⟩

/-- Sizes, one of them twice. -/
def sizes : List Node := [.text "small", .text "small", .text "large"]

def sizeNames : List String := ["Small", "SmallAgain", "Large"]

/-- An enumeration of the sizes with a name for each. -/
def sizeSchema : Node :=
  .record [("enum", .list sizes), ("x-enum-varnames", .list (sizeNames.map .text))]

theorem labels_sizeNames : Labels sizeSchema "x-enum-varnames" sizes sizeNames :=
  ⟨rfl, rfl, by decide⟩

theorem firstsFrom_sizes : firstsFrom [] sizes = [(0, .text "small"), (2, .text "large")] := rfl

/-- The second member stands for the third size and has the second name. -/
theorem labels_of_members_sizes :
    ∃ members places, (ofNode (sizeSchema.field "enum") >>= extend sizeSchema).outcome =
        .ok members ∧
      FirstPlaces sizes places ∧ MadeOf places sizeNames [] members ∧
      ¬ Aligned places sizeNames [] members := by
  have hvalues : sizeSchema.field "enum" = .list sizes := rfl
  obtain ⟨members, places, hmembers, hplaces, hmade, -, hgaps⟩ :=
    labels_of_members hvalues labels_sizeNames (.inr ⟨rfl, rfl⟩)
  refine ⟨members, places, hmembers, hplaces, hmade, fun haligned => ?_⟩
  have hgapFree := hgaps (by decide) haligned
  have hstays := (firstPlaces_firstsFrom sizes).gapFree_iff.1 hgapFree 1 2 (.text "large") rfl
  exact absurd hstays (by decide)

/-- Not every member has the labels at the first place of its value. -/
theorem not_all_members_aligned : ¬ ∀ schema values names descriptions members,
    schema.field "enum" = .list values → Labels schema "x-enum-varnames" values names →
    LabelsOrNone schema "x-enum-descriptions" values descriptions →
    (ofNode (schema.field "enum") >>= extend schema).outcome = .ok members →
    ∀ m ∈ members, ∀ i s, IsFirstPlace values i s → StandsFor m s →
      HasLabelsAt names descriptions i m := by
  intro h
  let m : EnumMember := { name := "SmallAgain", value := "\x27large\x27", type := "string" }
  have hplace : IsFirstPlace sizes 2 (.text "large") :=
    ((firstPlaces_firstsFrom sizes).mem_iff 2 _).1 (firstsFrom_sizes ▸ by simp)
  have hlabels := h sizeSchema sizes sizeNames [] _ rfl labels_sizeNames (.inr ⟨rfl, rfl⟩) rfl m
    (by decide) 2 (.text "large") hplace ⟨rfl, rfl⟩
  exact absurd hlabels.1 (by decide)

end Enumeration

end ApiModel
