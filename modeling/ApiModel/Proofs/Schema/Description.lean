import ApiModel.Proofs.Decimal.Reading
import ApiModel.Proofs.Text.Cut
import ApiModel.Schema.Enumeration

/-!
# Members listed in a description

A description such as `None=0,Some=1` lists members: names and numbers, with an equals sign between
the two and a comma between the pairs.

**Theorem (`ofDescription_listing`).** Of a description that is written so, with names whose members
are named differently, the members are read in order exactly if no number has more than `maxDigits`
digits; with such a number, reading fails.

The reader goes through a description character by character. `pairsFrom_listing` says what it finds
in a listing: the pairs that were written, whatever their names are made of, because neither an
equals sign nor a comma is a word character, and a comma is no digit.
-/

namespace ApiModel

namespace Enumeration

open Report

/-- A name and a number, as a description lists them. -/
structure Entry where
  name : List Char
  number : Nat
  deriving DecidableEq

namespace Entry

/-- The entry as it is written. -/
def written (e : Entry) : List Char := e.name ++ '=' :: Nat.toDigits 10 e.number

/-- The name is a word. -/
def IsNamed (e : Entry) : Prop := e.name ≠ [] ∧ ∀ c ∈ e.name, Unicode.isWord c = true

instance : DecidablePred IsNamed := fun e =>
  decidable_of_iff (e.name ≠ [] ∧ e.name.all Unicode.isWord = true) (by simp [IsNamed])

/-- The name of the member for the entry. -/
def memberName (e : Entry) : String := Identifier.memberName (String.ofList e.name)

/-- The member that the entry stands for. -/
def member (e : Entry) : EnumMember :=
  { name := e.memberName, value := toString e.number, type := "number" }

/-- The number is not too long to be read. -/
def IsShort (e : Entry) : Prop := e.number < 10 ^ Decimal.maxDigits

instance : DecidablePred IsShort :=
  fun e => inferInstanceAs (Decidable (e.number < 10 ^ Decimal.maxDigits))

end Entry

/-- A description that lists entries. -/
def listing (entries : List Entry) : String :=
  String.ofList (Text.join [','] (entries.map Entry.written))

section Reading

variable {name digits acc rest : List Char} {e : Entry} {entries : List Entry}

/-! ## What is read of a listing -/

/-- A word is read on to its end. -/
theorem pairsFrom_word (h : ∀ c ∈ name, Unicode.isWord c = true) (acc rest : List Char) :
    pairsFrom (.word acc) (name ++ rest) = pairsFrom (.word (acc ++ name)) rest := by
  induction name generalizing acc with
  | nil => rw [List.nil_append, List.append_nil]
  | cons c name ih =>
    obtain ⟨hc, hname⟩ := List.forall_mem_cons.1 h
    rw [List.cons_append, pairsFrom, if_pos hc, ih hname, List.append_assoc, List.singleton_append]

/-- And so is a number. -/
theorem pairsFrom_digits (h : ∀ c ∈ digits, c.isDigit = true) (acc rest : List Char) :
    pairsFrom (.pair name acc) (digits ++ rest) = pairsFrom (.pair name (acc ++ digits)) rest := by
  induction digits generalizing acc with
  | nil => rw [List.nil_append, List.append_nil]
  | cons c digits ih =>
    obtain ⟨hc, hdigits⟩ := List.forall_mem_cons.1 h
    rw [List.cons_append, pairsFrom, if_pos hc, ih hdigits, List.append_assoc,
      List.singleton_append]

/-- What is found of an entry before what follows it is known. -/
theorem pairsFrom_written (h : e.IsNamed) (rest : List Char) :
    pairsFrom (.word []) (e.written ++ rest) =
      pairsFrom (.pair e.name (Nat.toDigits 10 e.number)) rest := by
  have hequals : Unicode.isWord '=' = false := by decide
  have hdigits : ∀ c ∈ Nat.toDigits 10 e.number, c.isDigit = true :=
    fun c hc => Decimal.isDigit_of_mem_digits hc
  rw [Entry.written, List.append_assoc, pairsFrom_word h.2, List.nil_append, List.cons_append,
    pairsFrom, if_neg (by simp [hequals]), if_pos (by simp [h.1]), pairsFrom_digits hdigits,
    List.nil_append]

/-- The pairs of a listing are its entries. -/
theorem pairsFrom_listing (h : ∀ e ∈ entries, e.IsNamed) :
    pairsFrom (.word []) (Text.join [','] (entries.map Entry.written)) =
      entries.map fun e => (e.name, Nat.toDigits 10 e.number) := by
  induction entries with
  | nil => rfl
  | cons e entries ih =>
    obtain ⟨he, hentries⟩ := List.forall_mem_cons.1 h
    have hdigits : (Nat.toDigits 10 e.number).isEmpty = false := by simp
    by_cases hnil : entries = []
    · subst hnil
      have hlast := pairsFrom_written he []
      rw [List.append_nil] at hlast
      simp [Text.join, hlast, pairsFrom, hdigits]
    · have hcomma : Clause.begin ',' = .word [] := rfl
      rw [List.map_cons, Text.join_cons _ _ (by simpa using hnil), List.append_assoc,
        pairsFrom_written he, List.singleton_append, pairsFrom, if_neg (by decide), hdigits]
      simp [hcomma, ih hentries]

theorem beginsWithPair_written (h : e.IsNamed) (rest : List Char) :
    beginsWithPair (e.written ++ rest) = true := by
  have hequals : Unicode.isWord '=' = false := by decide
  obtain ⟨d, digits, hdigits⟩ : ∃ d digits, Nat.toDigits 10 e.number = d :: digits :=
    List.exists_cons_of_ne_nil Nat.toDigits_ne_nil
  have hd : d.isDigit = true :=
    Decimal.isDigit_of_mem_digits (hdigits ▸ List.mem_cons_self)
  have hname : (e.written ++ rest).takeWhile Unicode.isWord = e.name := by
    rw [Entry.written, List.append_assoc, List.takeWhile_append_of_pos h.2, List.cons_append,
      List.takeWhile_cons_of_neg (by simp [hequals]), List.append_nil]
  have hrest : (e.written ++ rest).dropWhile Unicode.isWord = '=' :: d :: (digits ++ rest) := by
    rw [Entry.written, List.append_assoc, List.dropWhile_append_of_pos h.2, List.cons_append,
      List.dropWhile_cons_of_neg (by simp [hequals]), hdigits, List.cons_append]
  simp [beginsWithPair, hname, hrest, hd, h.1]

theorem beginsWithPair_listing (hne : entries ≠ []) (h : ∀ e ∈ entries, e.IsNamed) :
    beginsWithPair (Text.join [','] (entries.map Entry.written)) = true := by
  obtain ⟨e, entries, rfl⟩ := List.exists_cons_of_ne_nil hne
  have he := h e List.mem_cons_self
  by_cases hnil : entries = []
  · subst hnil
    have hlast := beginsWithPair_written he []
    rwa [List.append_nil] at hlast
  · rw [List.map_cons, Text.join_cons _ _ (by simpa using hnil), List.append_assoc]
    exact beginsWithPair_written he _

/-! ## What becomes of the entries -/

theorem outcome_ofPair (e : Entry) :
    (ofPair (e.name, Nat.toDigits 10 e.number)).outcome =
      if e.IsShort then .ok e.member else .error .malformed := by
  have hread : Decimal.readInt? (Nat.toDigits 10 e.number) =
      if e.IsShort then some (e.number : Int) else none := Decimal.readInt?_toDigits e.number
  rw [ofPair, hread]
  split_ifs with hshort
  · rfl
  · rfl

/-- The entries become members one after the other, until a number is too long. -/
theorem outcome_ofPairs {seen : List String}
    (hnew : ∀ e ∈ entries, e.memberName ∉ seen) (hnodup : (entries.map Entry.memberName).Nodup) :
    (ofPairs seen (entries.map fun e => (e.name, Nat.toDigits 10 e.number))).outcome =
      if ∀ e ∈ entries, e.IsShort then .ok (entries.map Entry.member) else .error .malformed := by
  induction entries generalizing seen with
  | nil => rfl
  | cons e entries ih =>
    obtain ⟨hname, hnew⟩ := List.forall_mem_cons.1 hnew
    rw [List.map_cons, List.nodup_cons] at hnodup
    have hunseen : ¬ seen.contains (Identifier.memberName (String.ofList e.name)) = true := by
      simpa [Entry.memberName] using hname
    have hrest : ∀ e' ∈ entries, e'.memberName ∉ e.memberName :: seen := by
      intro e' he' hmem
      rcases List.mem_cons.1 hmem with heq | hseen
      · exact hnodup.1 (heq ▸ List.mem_map_of_mem he')
      · exact hnew e' he' hseen
    rw [List.map_cons, ofPairs, if_neg hunseen, outcome_bind, outcome_ofPair]
    by_cases hshort : e.IsShort
    · have hmember : e.member.name = e.memberName := rfl
      rw [if_pos hshort]
      simp only [Except.bind, outcome_bind, hmember, ih hrest hnodup.2, List.forall_mem_cons,
        hshort, true_and]
      split_ifs <;> rfl
    · rw [if_neg hshort, if_neg fun hall => hshort (hall e List.mem_cons_self)]
      rfl

theorem outcome_listing (hne : entries ≠ []) (h : ∀ e ∈ entries, e.IsNamed)
    (hnodup : (entries.map Entry.memberName).Nodup) :
    (ofDescription (listing entries)).outcome =
      if ∀ e ∈ entries, e.IsShort then .ok (entries.map Entry.member) else .error .malformed := by
  rw [ofDescription, listing, String.toList_ofList, if_pos (beginsWithPair_listing hne h),
    pairsFrom_listing h]
  exact outcome_ofPairs (fun _ _ => List.not_mem_nil) hnodup

end Reading

/-- The members of a listing are those of its entries, in order, exactly if no number is too long to
be read. Otherwise there are no members, but a fault. -/
theorem ofDescription_listing {entries : List Entry} (hne : entries ≠ [])
    (h : ∀ e ∈ entries, e.IsNamed) (hnodup : (entries.map Entry.memberName).Nodup) :
    ((ofDescription (listing entries)).outcome = .ok (entries.map Entry.member) ↔
        ∀ e ∈ entries, e.IsShort) ∧
      ((ofDescription (listing entries)).outcome = .error .malformed ↔
        ∃ e ∈ entries, ¬ e.IsShort) := by
  rw [outcome_listing hne h hnodup]
  by_cases hshort : ∀ e ∈ entries, e.IsShort
  · simp only [if_pos hshort]
    simpa using hshort
  · rw [if_neg hshort]
    simpa using hshort

/-- Three entries, with a number for a name and with a letter that has two capitals. -/
def shirtSizes : List Entry := [⟨"2xl_wide".toList, 7⟩, ⟨"7".toList, 0⟩, ⟨"größe".toList, 1200⟩]

theorem ofDescription_listing_shirtSizes :
    (∀ e ∈ shirtSizes, e.IsNamed) ∧ (shirtSizes.map Entry.memberName).Nodup ∧
      (∀ e ∈ shirtSizes, e.IsShort) ∧ listing shirtSizes = "2xl_wide=7,7=0,größe=1200" ∧
      (ofDescription (listing shirtSizes)).outcome = .ok
        [{ name := "_2XL_WIDE", value := "7", type := "number" },
          { name := "_7", value := "0", type := "number" },
          { name := "GRÖSSE", value := "1200", type := "number" }] := by
  have hnamed : ∀ e ∈ shirtSizes, e.IsNamed := by decide
  have hnodup : (shirtSizes.map Entry.memberName).Nodup := by decide
  have hsmall : ∀ e ∈ shirtSizes, e.number < 10 ^ 4 := by decide
  have hshort : ∀ e ∈ shirtSizes, e.IsShort := fun e he =>
    Nat.lt_of_lt_of_le (hsmall e he) (Nat.pow_le_pow_right (by decide) (by decide))
  refine ⟨hnamed, hnodup, hshort, by decide, ?_⟩
  rw [(ofDescription_listing (by decide) hnamed hnodup).1.2 hshort]
  rfl

/-- A number of one digit too many. -/
theorem not_all_listings_read :
    ¬ ∀ entries : List Entry, entries ≠ [] → (∀ e ∈ entries, e.IsNamed) →
      (entries.map Entry.memberName).Nodup →
      (ofDescription (listing entries)).outcome = .ok (entries.map Entry.member) := by
  intro hall
  have hnamed : ∀ e ∈ [Entry.mk ['A'] (10 ^ Decimal.maxDigits)], e.IsNamed :=
    List.forall_mem_singleton.2 ⟨List.cons_ne_nil _ _, List.forall_mem_singleton.2 rfl⟩
  have hlong : ¬ ∀ e ∈ [Entry.mk ['A'] (10 ^ Decimal.maxDigits)], e.IsShort := by
    simp [Entry.IsShort]
  have hread := hall _ (by simp) hnamed (by simp)
  rw [outcome_listing (by simp) hnamed (by simp), if_neg hlong] at hread
  cases hread

end Enumeration

end ApiModel
