import ApiModel.Json.Reader
import ApiModel.Proofs.Text.Cut

/-!
# What the readers of JSON read

Every reader of a part of a text gives what it has read and leaves an end of the text, or it stops.
Two things are said of all of them at once (`Reads`).

* What they read has every property that single values have and that lists and mappings keep
  (`Closed`): the readers put trees together in no other way.
* If they stop at an integer that is too long, the text that they were given holds a row of so many
  digits. What one reader leaves is an end of its text, so the digits in front of a reader stand in
  the text of all that call it.

A bind keeps both. The readers of values, entries and items call each other, so it is said of all
three at a budget (`ReadsWithin`), and goes from one budget to the next.

**Theorem (`of_read`).** What is read has every such property.

**Theorem (`hasLongRow_of_read`).** An integer is found too long only in a text with a row of so
many digits.
-/

namespace ApiModel.Json

/-- Does the text hold more digits in a row than an integer may have? -/
def HasLongRow (s : List Char) : Prop :=
  ∃ row, row <:+: s ∧ (∀ c ∈ row, c.isDigit) ∧ Decimal.maxDigits < row.length

theorem HasLongRow.mono {s t : List Char} (h : HasLongRow s) (hst : s <:+ t) : HasLongRow t := by
  obtain ⟨row, hrow, hdigits, hlong⟩ := h
  exact ⟨row, hrow.trans hst.isInfix, hdigits, hlong⟩

/-- A property of trees that single values have, and that is kept where trees are put together. -/
structure Closed (P : Node → Prop) : Prop where
  scalar : ∀ s, P (.scalar s)
  list : ∀ items, (∀ i ∈ items, P i) → P (.list items)
  empty : P (.map [])
  insert : ∀ entries key value, P (.map entries) → P value →
    P (.map (Node.insert key value entries))

theorem closed_true : Closed fun _ => True :=
  ⟨fun _ => trivial, fun _ _ => trivial, trivial, fun _ _ _ _ _ => trivial⟩

/-! ## Readings of a part -/

/-- The reading of the start of a text gives something with the property and leaves an end of the
text, or it stops, and at an integer that is too long only if the text holds a row of so many
digits. -/
def Reads {α : Type} (P : α → Prop) (s : List Char) : Except Stop (α × List Char) → Prop
  | .ok (a, tail) => P a ∧ tail <:+ s
  | .error e => e.problem = .hugeInteger → HasLongRow s

section

variable {α β : Type} {P : α → Prop} {Q : β → Prop} {s t : List Char}

theorem reads_pure {a : α} (ha : P a) (h : t <:+ s) : Reads P s (pure (a, t)) := ⟨ha, h⟩

theorem reads_error {problem : Problem} {left : Nat} (h : problem ≠ .hugeInteger) :
    Reads P s (.error ⟨problem, left⟩) :=
  fun heq => absurd heq h

theorem Reads.mono {x : Except Stop (α × List Char)} (hx : Reads P s x) (hst : s <:+ t) :
    Reads P t x := by
  cases x with
  | ok found => exact ⟨hx.1, hx.2.trans hst⟩
  | error e => exact fun heq => (hx heq).mono hst

/-- What follows a reading goes on within what the reading has left. -/
theorem Reads.bind {x : Except Stop (α × List Char)}
    {f : α × List Char → Except Stop (β × List Char)} (hx : Reads P s x)
    (hf : ∀ a tail, P a → tail <:+ s → Reads Q tail (f (a, tail))) : Reads Q s (x >>= f) := by
  cases x with
  | ok found => exact (hf found.1 found.2 hx.1 hx.2).mono hx.2
  | error e => exact hx

theorem skip_suffix (s : List Char) : skip s <:+ s := List.dropWhile_suffix _

/-- What stands behind the first character that is no white space. -/
theorem suffix_of_skip {c : Char} (h : skip s = c :: t) : t <:+ s :=
  (List.suffix_cons c t).trans (h ▸ skip_suffix s)

end

/-! ## Texts -/

theorem reads_unicodeEscape (s : List Char) : Reads (fun _ => True) s (unicodeEscape s) := by
  have hrest : s.drop 4 <:+ s := List.drop_suffix _ _
  unfold unicodeEscape
  split
  · exact reads_error nofun
  · dsimp only
    split_ifs
    · exact reads_error nofun
    · split
      · rename_i tail heq
        split_ifs
        · exact reads_pure trivial hrest
        · split
          · exact reads_error nofun
          · split_ifs
            · have htail : tail <:+ s.drop 4 := heq ▸ List.suffix_append ['\\', 'u'] tail
              exact reads_pure trivial (((List.drop_suffix 4 tail).trans htail).trans hrest)
            · exact reads_pure trivial hrest
      · exact reads_pure trivial hrest
    · exact reads_pure trivial hrest

theorem reads_readText (start budget : Nat) (done s : List Char) :
    Reads (fun _ => True) s (readText start budget done s) := by
  induction budget generalizing done s with
  | zero => exact reads_error nofun
  | succ budget ih =>
    cases s with
    | nil => exact reads_error nofun
    | cons c s =>
      have hs : s <:+ c :: s := List.suffix_cons c s
      unfold readText
      split_ifs
      · exact reads_pure trivial hs
      · split
        · exact reads_error nofun
        · rename_i rest
          refine Reads.mono ?_ ((List.suffix_cons 'u' rest).trans hs)
          exact (reads_unicodeEscape rest).bind fun x tail _ _ => ih (x :: done) tail
        · rename_i e rest _
          split
          · exact (ih _ rest).mono ((List.suffix_cons e rest).trans hs)
          · exact reads_error nofun
      · exact reads_error nofun
      · exact (ih (c :: done) s).mono hs

theorem reads_text (s : List Char) : Reads (fun _ => True) s (text s) := reads_readText _ _ _ s

/-! ## Numbers -/

/-- The integer part of a number is a row of digits, and what is left stands behind it. -/
theorem integerPart?_eq_some {s whole rest : List Char}
    (h : integerPart? s = some (whole, rest)) :
    s = whole ++ rest ∧ ∀ c ∈ whole, c.isDigit := by
  unfold integerPart? at h
  split at h
  · cases h
    exact ⟨rfl, List.forall_mem_singleton.2 rfl⟩
  · dsimp only at h
    split_ifs at h
    cases h
    exact ⟨List.takeWhile_append_dropWhile.symm, fun c hc => List.mem_takeWhile_imp hc⟩

theorem fractionPart_suffix (s : List Char) : (fractionPart s).2 <:+ s := by
  unfold fractionPart
  split
  · dsimp only
    split_ifs
    · exact List.suffix_refl _
    · exact (List.dropWhile_suffix _).trans (List.suffix_cons _ _)
  · exact List.suffix_refl _

theorem takeSign_suffix (s : List Char) : (Decimal.takeSign s).2 <:+ s := by
  unfold Decimal.takeSign
  split
  · exact List.suffix_cons _ _
  · exact List.suffix_cons _ _
  · exact List.suffix_refl _

theorem exponentPart_suffix (s : List Char) : (exponentPart s).2 <:+ s := by
  unfold exponentPart
  split
  · rename_i c rest
    split_ifs
    · dsimp only
      split
      · have hsign := takeSign_suffix rest
        exact ((List.dropWhile_suffix _).trans hsign).trans (List.suffix_cons c rest)
      · exact List.suffix_refl _
    · exact List.suffix_refl _
  · exact List.suffix_refl _

/-! ## Values -/

section

variable {P : Node → Prop} (hP : Closed P)

include hP

theorem reads_number (s : List Char) : Reads P s (number s) := by
  unfold number
  split
  rename_i negative body hsign
  have hbody : body <:+ s := by
    split at hsign <;> cases hsign
    · exact List.suffix_cons _ _
    · exact List.suffix_refl _
  split
  · exact reads_error nofun
  · rename_i whole rest hwhole
    obtain ⟨rfl, hdigits⟩ := integerPart?_eq_some hwhole
    have hrest : rest <:+ s := (List.suffix_append whole rest).trans hbody
    have htail : (exponentPart (fractionPart rest).2).2 <:+ s :=
      ((exponentPart_suffix _).trans (fractionPart_suffix rest)).trans hrest
    dsimp only
    split_ifs with _ hlong
    · exact fun _ => HasLongRow.mono
        ⟨whole, (List.prefix_append whole rest).isInfix, hdigits, hlong⟩ hbody
    · exact reads_pure (hP.scalar _) htail
    · exact reads_pure (hP.scalar _) htail

theorem reads_word? {s : List Char} {found : Node × List Char} (h : word? s = some found) :
    Reads P s (pure found) := by
  have hwords : ∀ w ∈ words, P w.2 := by
    simp only [words, List.forall_mem_cons, List.not_mem_nil, false_implies, implies_true, and_true]
    exact ⟨hP.scalar _, hP.scalar _, hP.scalar _, hP.scalar _, hP.scalar _, hP.scalar _⟩
  obtain ⟨w, hw, hfound⟩ := List.exists_of_findSome?_eq_some h
  obtain ⟨rest, hafter, rfl⟩ := Option.map_eq_some_iff.1 hfound
  exact reads_pure (hwords w hw) ⟨w.1.toList, (Text.after?_eq_some.1 hafter).symm⟩

end

/-- What the three readers read within a budget, if what they have read already has the
property. -/
structure ReadsWithin (P : Node → Prop) (budget : Nat) : Prop where
  value : ∀ s, Reads P s (value budget s)
  entries : ∀ done s, P (.map done) → Reads P s (entries budget done s)
  items : ∀ done s, (∀ i ∈ done, P i) → Reads P s (items budget done s)

variable {P : Node → Prop} {budget : Nat}

theorem ReadsWithin.value_succ (hP : Closed P) (ih : ReadsWithin P budget) (s : List Char) :
    Reads P s (Json.value (budget + 1) s) := by
  unfold Json.value
  split
  · rename_i rest
    refine Reads.mono ?_ (List.suffix_cons _ rest)
    exact (reads_text rest).bind fun t tail _ _ =>
      reads_pure (hP.scalar (.text t)) (List.suffix_refl tail)
  · rename_i rest
    refine Reads.mono ?_ (List.suffix_cons _ rest)
    split
    · rename_i tail heq
      exact reads_pure hP.empty (suffix_of_skip heq)
    · exact (ih.entries [] _ hP.empty).mono (skip_suffix rest)
  · rename_i rest
    refine Reads.mono ?_ (List.suffix_cons _ rest)
    have hnone : ∀ i ∈ ([] : List Node), P i := fun _ hmem => absurd hmem List.not_mem_nil
    split
    · rename_i tail heq
      exact reads_pure (hP.list [] hnone) (suffix_of_skip heq)
    · exact (ih.items [] _ hnone).mono (skip_suffix rest)
  · split
    · rename_i found hfound
      exact reads_word? hP hfound
    · exact reads_number hP s

theorem ReadsWithin.entries_succ (hP : Closed P) (ih : ReadsWithin P budget)
    (done : List (Scalar × Node)) (s : List Char) (hdone : P (.map done)) :
    Reads P s (Json.entries (budget + 1) done s) := by
  unfold Json.entries
  split
  · rename_i rest
    refine Reads.mono ?_ (List.suffix_cons _ rest)
    refine (reads_text rest).bind fun key tail _ _ => ?_
    dsimp only
    split
    · rename_i behind hcolon
      have hbehind : skip behind <:+ tail := (skip_suffix behind).trans (suffix_of_skip hcolon)
      refine Reads.mono ((ih.value (skip behind)).bind fun v tail hv _ => ?_) hbehind
      have hdone' := hP.insert done (.text key) v hdone hv
      dsimp only
      split
      · rename_i last heq
        exact reads_pure hdone' (suffix_of_skip heq)
      · rename_i next heq
        exact (ih.entries _ _ hdone').mono ((skip_suffix next).trans (suffix_of_skip heq))
      · exact reads_error nofun
    · exact reads_error nofun
  · exact reads_error nofun

theorem ReadsWithin.items_succ (hP : Closed P) (ih : ReadsWithin P budget) (done : List Node)
    (s : List Char) (hdone : ∀ i ∈ done, P i) : Reads P s (Json.items (budget + 1) done s) := by
  unfold Json.items
  refine (ih.value s).bind fun v tail hv _ => ?_
  have hdone' : ∀ i ∈ v :: done, P i := List.forall_mem_cons.2 ⟨hv, hdone⟩
  dsimp only
  split
  · rename_i last heq
    exact reads_pure (hP.list _ fun i hi => hdone' i (List.mem_reverse.1 hi)) (suffix_of_skip heq)
  · rename_i next heq
    exact (ih.items _ _ hdone').mono ((skip_suffix next).trans (suffix_of_skip heq))
  · exact reads_error nofun

theorem readsWithin (hP : Closed P) (budget : Nat) : ReadsWithin P budget := by
  induction budget with
  | zero =>
    exact ⟨fun _ => reads_error nofun, fun _ _ _ => reads_error nofun,
      fun _ _ _ => reads_error nofun⟩
  | succ budget ih => exact ⟨ih.value_succ hP, ih.entries_succ hP, ih.items_succ hP⟩

/-! ## Documents -/

/-- A document is a value with nothing behind it. What is none begins with no value, or something
else than an integer is wrong with it. -/
theorem document_cases (s : List Char) :
    (∃ n tail, Json.value (s.length + 1) (skip s) = .ok (n, tail) ∧ document s = .ok n) ∨
      ∃ e, document s = .error e ∧
        (e.problem ≠ .hugeInteger ∨ Json.value (s.length + 1) (skip s) = .error e) := by
  unfold document
  split_ifs
  · exact .inr ⟨_, rfl, .inl nofun⟩
  · cases Json.value (s.length + 1) (skip s) with
    | error e => exact .inr ⟨e, rfl, .inr rfl⟩
    | ok found =>
      dsimp only [bind, Except.bind]
      split
      · exact .inl ⟨found.1, found.2, rfl, rfl⟩
      · exact .inr ⟨_, rfl, .inl nofun⟩

theorem read_of_ok {s : String} {n : Node} (h : document s.toList = .ok n) : read s = .ok n := by
  change (document s.toList).mapError _ = _
  rw [h]
  rfl

theorem read_of_error {s : String} {e : Stop} (h : document s.toList = .error e) :
    read s = .error (Error.at e.problem s.toList (s.toList.length - e.left)) := by
  change (document s.toList).mapError _ = _
  rw [h]
  rfl

/-- What is read has every property that single values have and that lists and mappings keep. -/
theorem of_read (hP : Closed P) {s : String} {n : Node} (h : read s = .ok n) : P n := by
  have hvalue := (readsWithin hP (s.toList.length + 1)).value (skip s.toList)
  rcases document_cases s.toList with ⟨root, tail, hroot, hdocument⟩ | ⟨e, hdocument, -⟩
  · cases h.symm.trans (read_of_ok hdocument)
    rw [hroot] at hvalue
    exact hvalue.1
  · cases h.symm.trans (read_of_error hdocument)

/-- An integer is found too long only in a text with a row of so many digits. -/
theorem hasLongRow_of_read {s : String} {e : Error} (h : read s = .error e)
    (hhuge : e.problem = .hugeInteger) : HasLongRow s.toList := by
  have hvalue := (readsWithin closed_true (s.toList.length + 1)).value (skip s.toList)
  rcases document_cases s.toList with ⟨root, tail, -, hdocument⟩ | ⟨stopped, hdocument, hwhy⟩
  · cases h.symm.trans (read_of_ok hdocument)
  · cases h.symm.trans (read_of_error hdocument)
    rcases hwhy with hother | hstopped
    · exact absurd hhuge hother
    · rw [hstopped] at hvalue
      exact (hvalue hhuge).mono (skip_suffix s.toList)

end ApiModel.Json
