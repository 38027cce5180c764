import ApiModel.Client.Tidy
import Mathlib.Data.List.Nodup
import Mathlib.Data.List.Count
import Mathlib.Data.List.Forall2

/-!
# Names of operations

In a service in order an operation has its own name and the number of operations before it that
have the same name; the number zero is not written. The numbers of one name differ, but a number
can be written so that the name and it are together the name of another operation.

**Theorem (`client_names_nodup_iff`).** The operations of a service in order have names of their
own exactly when, for a name that `n` operations of the service share, none of the operations has
the name with one of the numbers `1, …, n - 1`.

So only the names that stood there before can be in the way: two names made from different names
are equal only if one of these is the other with a smaller number, since the beginning of a
number is a smaller number.
-/

namespace ApiModel

namespace Tidy

/-! ## Numbers -/

/-- The beginning of a number is a smaller number. -/
theorem number_of_append_eq_toDigits {i : Nat} (hi : 0 < i) {w t : List Char} (hw : w ≠ [])
    (ht : t ≠ []) (h : w ++ t = Nat.toDigits 10 i) :
    ∃ k, 0 < k ∧ k < i ∧ w = Nat.toDigits 10 k := by
  induction i using Nat.strongRecOn generalizing t with
  | ind i ih =>
    obtain ⟨front, c, rfl⟩ := (List.eq_nil_or_concat' t).resolve_left ht
    by_cases hten : i < 10
    · -- A single digit has no beginning but itself.
      have hlength := congrArg List.length h
      rw [Nat.toDigits_of_lt_base hten] at hlength
      simp only [List.length_append, List.length_singleton] at hlength
      have := List.length_pos_iff.mpr hw
      omega
    · have hten : 10 ≤ i := Nat.le_of_not_lt hten
      rw [Nat.toDigits_of_base_le (by decide) hten, ← List.append_assoc] at h
      have hfront : w ++ front = Nat.toDigits 10 (i / 10) := (List.append_inj_left' h rfl :)
      have hsmaller : i / 10 < i := Nat.div_lt_self hi (by decide)
      by_cases hnil : front = []
      · subst hnil
        exact ⟨i / 10, by omega, hsmaller, by rw [← hfront, List.append_nil]⟩
      · obtain ⟨k, hpos, hk, rfl⟩ := ih _ hsmaller (by omega) hnil hfront
        exact ⟨k, hpos, Nat.lt_trans hk hsmaller, rfl⟩

theorem toDigits_injective {i j : Nat} (h : Nat.toDigits 10 i = Nat.toDigits 10 j) : i = j := by
  rw [← Nat.ofDigitChars_ten_toDigits (n := i), h, Nat.ofDigitChars_ten_toDigits]

/-! ## Numbered names -/

@[simp]
theorem numbered_zero (name : String) : numbered name 0 = name := rfl

theorem toList_numbered {i : Nat} (name : String) (hi : 0 < i) :
    (numbered name i).toList = name.toList ++ Nat.toDigits 10 i := by
  rw [numbered, if_neg (Nat.pos_iff_ne_zero.mp hi), String.toList_append, Nat.toString_eq_repr,
    Nat.toList_repr]

/-- Where two names and numbers read the same and the first name is the shorter one, the second
one is the first with a number. -/
theorem numbered_eq_of_append {n m : String} {i j : Nat} {t : List Char} (hi : 0 < i)
    (hname : m.toList = n.toList ++ t)
    (hnumber : Nat.toDigits 10 i = t ++ Nat.toDigits 10 j) :
    (n = m ∧ i = j) ∨ ∃ k, 0 < k ∧ k < i ∧ m = numbered n k := by
  by_cases ht : t = []
  · subst ht
    rw [List.append_nil] at hname
    exact .inl ⟨(String.toList_inj.mp hname).symm, toDigits_injective hnumber⟩
  · obtain ⟨k, hpos, hk, rfl⟩ := number_of_append_eq_toDigits hi ht Nat.toDigits_ne_nil
      hnumber.symm
    refine .inr ⟨k, hpos, hk, String.toList_inj.mp ?_⟩
    rw [hname, toList_numbered n hpos]

/-- Two numbered names are equal only if the names and the numbers are, or one of the names is
the other one with a smaller number. -/
theorem numbered_eq_numbered {n m : String} {i j : Nat} (hi : 0 < i) (hj : 0 < j)
    (h : numbered n i = numbered m j) :
    (n = m ∧ i = j) ∨ (∃ k, 0 < k ∧ k < i ∧ m = numbered n k) ∨
      ∃ k, 0 < k ∧ k < j ∧ n = numbered m k := by
  have htext := congrArg String.toList h
  rw [toList_numbered n hi, toList_numbered m hj] at htext
  rcases List.append_eq_append_iff.mp htext with ⟨t, hname, hnumber⟩ | ⟨t, hname, hnumber⟩
  · rcases numbered_eq_of_append hi hname hnumber with hsame | hsmaller
    · exact .inl hsame
    · exact .inr (.inl hsmaller)
  · rcases numbered_eq_of_append hj hname hnumber with ⟨hsame, hij⟩ | hsmaller
    · exact .inl ⟨hsame.symm, hij.symm⟩
    · exact .inr (.inr hsmaller)

/-! ## Names and their repetitions -/

/-- Each name with its number of occurrences before it, after names that came earlier. -/
def repetitions (earlier : List String) : List String → List (String × Nat)
  | [] => []
  | n :: rest => (n, earlier.count n) :: repetitions (n :: earlier) rest

theorem names_operationsAfter (earlier : List String) (ops : List Operation) :
    (operationsAfter earlier ops).map (·.name) =
      (repetitions earlier (ops.map (·.name))).map fun r => numbered r.1 r.2 := by
  induction ops generalizing earlier with
  | nil => rfl
  | cons o rest ih =>
    rw [operationsAfter, List.map_cons, List.map_cons, repetitions, List.map_cons, ih]

theorem mem_repetitions {earlier names : List String} {n : String} {i : Nat} :
    (n, i) ∈ repetitions earlier names ↔
      earlier.count n ≤ i ∧ i < earlier.count n + names.count n := by
  induction names generalizing earlier with
  | nil =>
    simp only [repetitions, List.not_mem_nil, List.count_nil, false_iff]
    omega
  | cons m rest ih =>
    rw [repetitions, List.mem_cons, ih, Prod.mk.injEq]
    by_cases h : m = n
    · subst h
      simp only [List.count_cons_self, true_and]
      omega
    · simp only [List.count_cons_of_ne h, Ne.symm h, false_and, false_or]

theorem nodup_repetitions (earlier names : List String) : (repetitions earlier names).Nodup := by
  induction names generalizing earlier with
  | nil => exact List.nodup_nil
  | cons n rest ih =>
    refine List.nodup_cons.mpr ⟨fun hmem => ?_, ih _⟩
    have := (mem_repetitions.mp hmem).1
    rw [List.count_cons_self] at this
    omega

/-! ## Names in order -/

/-- No name with the number of one of its repetitions is a name already. -/
def NumbersFree (names : List String) : Prop :=
  ∀ name j, 0 < j → j < names.count name → numbered name j ∉ names

theorem mem_of_count {names : List String} {name : String} {j : Nat} (h : j < names.count name) :
    name ∈ names :=
  List.count_pos_iff.mp (Nat.zero_lt_of_lt h)

/-- Where no numbered name is taken, names are equal only if they repeat one name as often. -/
theorem NumbersFree.inj {names : List String} (hfree : NumbersFree names) {n m : String}
    {i j : Nat} (hn : i < names.count n) (hm : j < names.count m)
    (h : numbered n i = numbered m j) : n = m ∧ i = j := by
  cases i with
  | zero =>
    cases j with
    | zero => exact ⟨h, rfl⟩
    | succ j =>
      rw [numbered_zero] at h
      exact absurd (h ▸ mem_of_count hn) (hfree m (j + 1) j.succ_pos hm)
  | succ i =>
    cases j with
    | zero =>
      rw [numbered_zero] at h
      exact absurd (h ▸ mem_of_count hm) (hfree n (i + 1) i.succ_pos hn)
    | succ j =>
      rcases numbered_eq_numbered i.succ_pos j.succ_pos h with
        hsame | ⟨k, hpos, hk, hname⟩ | ⟨k, hpos, hk, hname⟩
      · exact hsame
      · exact absurd (hname ▸ mem_of_count hm) (hfree n k hpos (Nat.lt_trans hk hn))
      · exact absurd (hname ▸ mem_of_count hn) (hfree m k hpos (Nat.lt_trans hk hm))

theorem nodup_numbered_iff (names : List String) :
    ((repetitions [] names).map fun r => numbered r.1 r.2).Nodup ↔ NumbersFree names := by
  have hmem {n : String} {i : Nat} : (n, i) ∈ repetitions [] names ↔ i < names.count n := by
    rw [mem_repetitions, List.count_nil, Nat.zero_add, and_iff_right i.zero_le]
  rw [List.nodup_map_iff_inj_on (nodup_repetitions [] names)]
  constructor
  · intro hinj name j hpos hj htaken
    have hsame := hinj (name, j) (hmem.mpr hj) (numbered name j, 0)
      (hmem.mpr (List.count_pos_iff.mpr htaken)) rfl
    exact absurd (Prod.mk.inj hsame).2 (Nat.pos_iff_ne_zero.mp hpos)
  · rintro hfree ⟨n, i⟩ hn ⟨m, j⟩ hm h
    obtain ⟨rfl, rfl⟩ := hfree.inj (hmem.mp hn) (hmem.mp hm) h
    rfl

theorem service_names_nodup_iff (s : Service) :
    ((service s).operations.map (·.name)).Nodup ↔ NumbersFree (s.operations.map (·.name)) := by
  show ((operationsAfter [] s.operations).map (·.name)).Nodup ↔ _
  rw [names_operationsAfter, nodup_numbered_iff]

/-- Service by service, the operations of a client in order have distinct names exactly if none of
them was named like another one with the number of a repetition. -/
theorem client_names_nodup_iff (c : Client) :
    List.Forall₂
      (fun before after =>
        (after.operations.map (·.name)).Nodup ↔
          ∀ name j, 0 < j → j < (before.operations.map (·.name)).count name →
            numbered name j ∉ before.operations.map (·.name))
      c.services (client c).services := by
  show List.Forall₂ _ c.services (c.services.map service)
  rw [List.forall₂_map_right_iff, List.forall₂_same]
  intro s _
  exact service_names_nodup_iff s

/-- A service with an operation that has the name the second of two others will get: in order
they are `list`, `list1` and `list1`. -/
def listing : Service where
  name := "Pets"
  operations := ["list", "list", "list1"].map fun name =>
    { service := "Pets", name := name, method := "get", url := "/" ++ name }

theorem not_all_client_names_nodup :
    ¬ ∀ c : Client, ∀ s ∈ (client c).services, (s.operations.map (·.name)).Nodup := by
  intro h
  have hnodup := h { version := "1", server := "", services := [listing] } (service listing)
    (List.mem_singleton.mpr rfl)
  exact absurd hnodup (by decide)

end Tidy

end ApiModel
