import ApiModel.Operation.Content
import Mathlib.Data.List.Nodup
import Mathlib.Data.Prod.Lex

/-!
# Which content is chosen

A content map offers schemas under media types. Media types are ranked by the list of the preferred
ones, all others behind them, and an offer is best if no other one has a better rank, or the same
rank and an earlier place.

**Theorem (`choose_record`).** What is chosen is the best offer, and nothing is chosen exactly if
there is no offer. Hence entries without a schema do not matter, and neither does the order of the
entries if no two offers have the same rank.

The scan asks for one media type after the other. Where it stops, none of the media types before has
been found and none of the entries before has this one (`best_eq_some`), which is what being best
means (`IsBest.of_split`).
-/

namespace ApiModel.Content

/-! ## Offers -/

/-- The place of a media type in the list of the preferred ones, its parameters and the white space
around it aside. Those that are not listed share the place behind the list. -/
def rank (mediaType : String) : Nat := mediaTypes.idxOf (essence mediaType)

/-- The schema of an entry, which has to be a mapping. -/
def HasSchema (entry schema : Node) : Prop :=
  entry.get? "schema" = some schema ∧ schema.isMap = true

/-- The entry at a place offers a schema under a media type. -/
def Offers (fields : List (String × Node)) (i : Nat) (offer : String × Node) : Prop :=
  ∃ entry, fields[i]? = some (offer.1, entry) ∧ HasSchema entry offer.2

/-- Of all offers, the one at this place has the least rank, and of those the least place. -/
def IsBest (fields : List (String × Node)) (i : Nat) (offer : String × Node) : Prop :=
  Offers fields i offer ∧
    ∀ j other, Offers fields j other → toLex (rank offer.1, i) ≤ toLex (rank other.1, j)

/-- The second content map has the entries of the first, in their order, and between them others
without a schema. -/
inductive Extended : List (String × Node) → List (String × Node) → Prop
  | nil : Extended [] []
  | keep {fields more : List (String × Node)} (f : String × Node) :
      Extended fields more → Extended (f :: fields) (f :: more)
  | add {fields more : List (String × Node)} (f : String × Node) :
      (∀ schema, ¬ HasSchema f.2 schema) → Extended fields more → Extended fields (f :: more)

/-- No two entries that offer a schema have the same rank. -/
def RanksApart (fields : List (String × Node)) : Prop :=
  fields.Pairwise fun f g => ∀ s t, HasSchema f.2 s → HasSchema g.2 t → rank f.1 ≠ rank g.1

/-- What an entry offers. -/
def offer? (f : String × Node) : Option (String × Node) :=
  if (f.2.field "schema").isMap then some (f.1, f.2.field "schema") else none

section Offers

variable {fields more front back : List (String × Node)} {f : String × Node}
  {offer other : String × Node} {i j : Nat}

theorem hasSchema_iff {entry schema : Node} :
    HasSchema entry schema ↔ entry.field "schema" = schema ∧ schema.isMap = true := by
  unfold HasSchema Node.field
  refine and_congr_left fun hmap => ?_
  cases entry.get? "schema" with
  | some s => simp
  | none =>
    -- Where there is no such keyword, the field is no mapping.
    have hnull : Node.null ≠ schema := by
      rintro rfl
      cases hmap
    simp [hnull]

theorem offer?_eq_some_iff : offer? f = some offer ↔ f.1 = offer.1 ∧ HasSchema f.2 offer.2 := by
  rw [hasSchema_iff, offer?, Option.ite_none_right_eq_some, Option.some.injEq, Prod.ext_iff]
  constructor
  · rintro ⟨hmap, hname, hschema⟩
    exact ⟨hname, hschema, hschema ▸ hmap⟩
  · rintro ⟨hname, hschema, hmap⟩
    exact ⟨hschema ▸ hmap, hname, hschema⟩

theorem offers_iff :
    Offers fields i offer ↔ ∃ f, fields[i]? = some f ∧ offer? f = some offer := by
  simp only [offer?_eq_some_iff]
  constructor
  · rintro ⟨entry, hentry, hschema⟩
    exact ⟨_, hentry, rfl, hschema⟩
  · rintro ⟨⟨name, entry⟩, hf, rfl, hschema⟩
    exact ⟨entry, hf, hschema⟩

theorem exists_offers_iff : (∃ i, Offers fields i offer) ↔ offer ∈ fields.filterMap offer? := by
  simp only [offers_iff, List.mem_filterMap]
  constructor
  · rintro ⟨i, f, hf, hoffer⟩
    exact ⟨f, List.mem_of_getElem? hf, hoffer⟩
  · rintro ⟨f, hf, hoffer⟩
    obtain ⟨i, hi⟩ := List.mem_iff_getElem?.1 hf
    exact ⟨i, f, hi, hoffer⟩

/-- There is no more than one best offer. -/
theorem IsBest.unique (h : IsBest fields i offer) (h' : IsBest fields j other) :
    i = j ∧ offer = other := by
  have heq := le_antisymm (h.2 j other h'.1) (h'.2 i offer h.1)
  obtain ⟨-, rfl⟩ := Prod.mk.inj (toLex_inj.1 heq)
  obtain ⟨f, hf, hoffer⟩ := offers_iff.1 h.1
  obtain ⟨g, hg, hother⟩ := offers_iff.1 h'.1
  rw [hf, Option.some.injEq] at hg
  subst hg
  exact ⟨rfl, Option.some.inj (hoffer.symm.trans hother)⟩

/-- An offer is best if those before it have larger ranks and those behind it no smaller ones. -/
theorem IsBest.of_split (hf : offer? f = some offer)
    (hfront : ∀ o ∈ front.filterMap offer?, rank offer.1 < rank o.1)
    (hback : ∀ o ∈ back.filterMap offer?, rank offer.1 ≤ rank o.1) :
    IsBest (front ++ f :: back) front.length offer := by
  refine ⟨offers_iff.2 ⟨f, by simp, hf⟩, fun j other hother => ?_⟩
  obtain ⟨g, hg, hg'⟩ := offers_iff.1 hother
  rw [Prod.Lex.toLex_le_toLex]
  dsimp only
  rcases lt_trichotomy j front.length with hlt | rfl | hgt
  · rw [List.getElem?_append_left hlt] at hg
    exact .inl (hfront other (List.mem_filterMap.2 ⟨g, List.mem_of_getElem? hg, hg'⟩))
  · rw [List.getElem?_append_right le_rfl, Nat.sub_self, List.getElem?_cons_zero,
      Option.some.injEq] at hg
    subst hg
    obtain rfl : offer = other := Option.some.inj (hf.symm.trans hg')
    exact .inr ⟨rfl, le_rfl⟩
  · have hmem : g ∈ back := by
      rw [List.getElem?_append_right hgt.le, List.getElem?_cons, if_neg (by omega)] at hg
      exact List.mem_of_getElem? hg
    have hle := hback other (List.mem_filterMap.2 ⟨g, hmem, hg'⟩)
    exact (lt_or_eq_of_le hle).imp_right fun heq => ⟨heq, hgt.le⟩

theorem filterMap_of_extended (h : Extended fields more) :
    more.filterMap offer? = fields.filterMap offer? := by
  induction h with
  | nil => rfl
  | keep f _ ih => rw [List.filterMap_cons, List.filterMap_cons, ih]
  | add f hnone _ ih =>
    have hoffer : offer? f = none :=
      Option.eq_none_iff_forall_ne_some.2 fun o ho => hnone o.2 (offer?_eq_some_iff.1 ho).2
    rw [List.filterMap_cons_none hoffer, ih]

theorem nodup_ranks (h : RanksApart fields) :
    ((fields.filterMap offer?).map fun o => rank o.1).Nodup := by
  rw [List.Nodup, List.pairwise_map, List.pairwise_filterMap]
  refine List.Pairwise.imp (fun hapart o ho o' ho' => ?_) h
  obtain ⟨hname, hschema⟩ := offer?_eq_some_iff.1 ho
  obtain ⟨hname', hschema'⟩ := offer?_eq_some_iff.1 ho'
  rw [← hname, ← hname']
  exact hapart o.2 o'.2 hschema hschema'

end Offers

/-! ## The scan -/

section Scan

variable {cs : List (String × Node)} {c : String × Node}

theorem find?_eq_none_iff {wanted : String} :
    find? cs wanted = none ↔ ∀ d ∈ cs, essence d.1 ≠ wanted := by
  simp [find?]

/-- The rank of a media type that is none of the first preferred ones. -/
theorem rank_eq {before rest : List String} (hmedia : mediaTypes = before ++ rest)
    {mediaType : String} (h : essence mediaType ∉ before) :
    rank mediaType = before.length + rest.idxOf (essence mediaType) := by
  rw [rank, hmedia, List.idxOf_append_of_notMem h]

/-- The scan stops at a candidate of the least rank; those before it have larger ranks. -/
theorem best_eq_some (h : best cs = some c) :
    ∃ front back, cs = front ++ c :: back ∧ (∀ d ∈ front, rank c.1 < rank d.1) ∧
      ∀ d ∈ back, rank c.1 ≤ rank d.1 := by
  rw [best, Option.or_eq_some_iff] at h
  rcases h with hfound | ⟨hnone, hhead⟩
  · -- The media type that is found splits the list of the preferred ones.
    obtain ⟨before, wanted, after, hmedia, hfind, hbefore⟩ := List.findSome?_eq_some_iff.1 hfound
    obtain ⟨hc, front, back, rfl, hfront⟩ := List.find?_eq_some_iff_append.1 hfind
    have hc : essence c.1 = wanted := by simpa using hc
    have hrank (d : String × Node) (hd : d ∈ front ++ c :: back) :
        rank d.1 = before.length + (wanted :: after).idxOf (essence d.1) :=
      rank_eq hmedia fun hmem => find?_eq_none_iff.1 (hbefore _ hmem) d hd rfl
    have hleast : rank c.1 = before.length := by
      rw [hrank c (by simp), hc, List.idxOf_cons_self, Nat.add_zero]
    refine ⟨front, back, rfl, fun d hd => ?_, fun d hd => ?_⟩
    · have hother : wanted ≠ essence d.1 := fun heq => by simpa [← heq] using hfront d hd
      rw [hleast, hrank d (by simp [hd]), List.idxOf_cons_ne _ hother]
      omega
    · rw [hleast, hrank d (by simp [hd])]
      omega
  · -- No preferred media type is found, so all candidates have the last rank.
    rw [List.findSome?_eq_none_iff] at hnone
    have hlast (d : String × Node) (hd : d ∈ cs) : rank d.1 = mediaTypes.length :=
      List.idxOf_of_notMem fun hmem => find?_eq_none_iff.1 (hnone _ hmem) d hd rfl
    obtain ⟨back, rfl⟩ := List.head?_eq_some_iff.1 hhead
    refine ⟨[], back, rfl, by simp, fun d hd => ?_⟩
    rw [hlast c (by simp), hlast d (by simp [hd])]

theorem best_eq_none_iff : best cs = none ↔ cs = [] := by
  constructor
  · intro h
    rw [best, Option.or_eq_none_iff, List.head?_eq_none_iff] at h
    exact h.2
  · rintro rfl
    rfl

/-- Candidates of different ranks may stand in any order. -/
theorem best_perm {ds : List (String × Node)} (hperm : cs.Perm ds)
    (hranks : (cs.map fun d => rank d.1).Nodup) : best ds = best cs := by
  have hleast {es : List (String × Node)} {e : String × Node} (h : best es = some e) :
      e ∈ es ∧ ∀ d ∈ es, rank e.1 ≤ rank d.1 := by
    obtain ⟨front, back, rfl, hfront, hback⟩ := best_eq_some h
    refine ⟨by simp, fun d hd => ?_⟩
    rcases List.mem_append.1 hd with hd | hd
    · exact (hfront d hd).le
    · rcases List.mem_cons.1 hd with rfl | hd
      · exact le_rfl
      · exact hback d hd
  cases hcs : best cs with
  | none =>
    rw [best_eq_none_iff.1 hcs, List.nil_perm] at hperm
    rw [hperm]
    rfl
  | some c =>
    cases hds : best ds with
    | none =>
      rw [best_eq_none_iff.1 hds, List.perm_nil] at hperm
      rw [hperm] at hcs
      cases hcs
    | some d =>
      obtain ⟨hc, hleastc⟩ := hleast hcs
      obtain ⟨hd, hleastd⟩ := hleast hds
      have heq := le_antisymm (hleastd c (hperm.mem_iff.1 hc)) (hleastc d (hperm.mem_iff.2 hd))
      rw [List.inj_on_of_nodup_map hranks (hperm.mem_iff.2 hd) hc heq]

end Scan

/-! ## The choice -/

section Choice

variable {fields more other : List (String × Node)} {offer : String × Node}

theorem withSchema_record (fields : List (String × Node)) :
    withSchema (fields.map fun f => (.text f.1, f.2)) =
      (fields.filterMap offer?).map fun o => (.text o.1, o.2) := by
  rw [withSchema, List.filterMap_map, List.map_filterMap]
  refine List.filterMap_congr fun f _ => ?_
  by_cases hmap : (f.2.field "schema").isMap = true
  · simp [offer?, hmap]
  · simp [offer?, hmap]

theorem mapM_textual? (offers : List (String × Node)) :
    (offers.map fun o => (Scalar.text o.1, o.2)).mapM textual? = some offers := by
  induction offers with
  | nil => rfl
  | cons o offers ih =>
    rw [List.map_cons, List.mapM_cons, ih]
    rfl

theorem choose_eq_best (fields : List (String × Node)) :
    choose (.record fields) = pure (best (fields.filterMap offer?)) := by
  unfold choose Node.record
  simp only [withSchema_record, mapM_textual?]

theorem isBest_of_best (h : best (fields.filterMap offer?) = some offer) :
    ∃ i, IsBest fields i offer := by
  obtain ⟨cs, ds, hsplit, hfront, hback⟩ := best_eq_some h
  obtain ⟨front, rest, rfl, rfl, hrest⟩ := List.filterMap_eq_append_iff.1 hsplit
  obtain ⟨gap, f, back, rfl, hgap, hf, rfl⟩ := List.filterMap_eq_cons_iff.1 hrest
  have hnone : gap.filterMap offer? = [] := List.filterMap_eq_nil_iff.2 hgap
  rw [← List.append_assoc]
  exact ⟨_, .of_split hf (by simpa [hnone] using hfront) hback⟩

theorem best_eq_some_iff :
    best (fields.filterMap offer?) = some offer ↔ ∃ i, IsBest fields i offer := by
  refine ⟨isBest_of_best, fun ⟨i, hbest⟩ => ?_⟩
  cases hchoice : best (fields.filterMap offer?) with
  | none =>
    have hmem := exists_offers_iff.1 ⟨i, hbest.1⟩
    rw [best_eq_none_iff.1 hchoice] at hmem
    cases hmem
  | some other =>
    obtain ⟨j, hother⟩ := isBest_of_best hchoice
    rw [(hbest.unique hother).2]

end Choice

/-- What is chosen of a content map is its best offer, if there is an offer at all. Entries without
a schema may be added, and entries that offer schemas under media types of different ranks may be
put in another order. -/
theorem choose_record (fields : List (String × Node)) :
    (∃ choice, choose (.record fields) = pure choice ∧
      (∀ offer, choice = some offer ↔ ∃ i, IsBest fields i offer) ∧
      (choice = none ↔ ∀ i offer, ¬ Offers fields i offer)) ∧
    (∀ more, Extended fields more → choose (.record more) = choose (.record fields)) ∧
    ∀ other, fields.Perm other → RanksApart fields →
      choose (.record other) = choose (.record fields) := by
  have hnone : best (fields.filterMap offer?) = none ↔ ∀ i offer, ¬ Offers fields i offer := by
    rw [best_eq_none_iff, List.eq_nil_iff_forall_not_mem, forall_comm]
    simp only [← exists_offers_iff, not_exists]
  refine ⟨⟨_, choose_eq_best fields, fun offer => best_eq_some_iff, hnone⟩, fun more hmore => ?_,
    fun other hperm hranks => ?_⟩
  · rw [choose_eq_best, choose_eq_best, filterMap_of_extended hmore]
  · rw [choose_eq_best, choose_eq_best, best_perm (hperm.filterMap _) (nodup_ranks hranks)]

/-- A content map with two offers, the first of them of a media type that is not preferred, and
between them an entry without a schema. -/
def reportContent : List (String × Node) :=
  [("application/xml", .record [("schema", .record [("type", .text "string")])]),
    ("image/png", .record []),
    (" text/plain ; charset=utf-8", .record [("schema", .record [("type", .text "number")])])]

/-- The report is chosen as plain text, also from a larger content map and in the other order. -/
theorem choose_record_report :
    let offer := (" text/plain ; charset=utf-8", Node.record [("type", .text "number")])
    let larger := ("application/json", .null) :: reportContent
    Extended reportContent larger ∧ RanksApart reportContent ∧
      choose (.record reportContent) = pure (some offer) ∧
      choose (.record larger) = choose (.record reportContent) ∧
      choose (.record reportContent.reverse) = choose (.record reportContent) := by
  intro offer larger
  have hnull : ∀ s, ¬ HasSchema .null s := by rintro s ⟨⟨⟩, -⟩
  have hempty : ∀ s, ¬ HasSchema (.record []) s := by rintro s ⟨⟨⟩, -⟩
  have hlarger : Extended reportContent larger :=
    .add _ hnull (.keep _ (.keep _ (.keep _ .nil)))
  have hranks : RanksApart reportContent := by
    refine .cons (List.forall_mem_cons.2 ⟨?_, List.forall_mem_singleton.2 ?_⟩)
      (.cons (List.forall_mem_singleton.2 ?_) (.cons (by simp) .nil))
    · exact fun _ t _ ht => absurd ht (hempty t)
    · exact fun _ _ _ _ => by decide
    · exact fun s _ hs => absurd hs (hempty s)
  obtain ⟨-, hmore, hother⟩ := choose_record reportContent
  exact ⟨hlarger, hranks, rfl, hmore larger hlarger,
    hother _ (List.reverse_perm _).symm hranks⟩

end ApiModel.Content
