import Mathlib.Algebra.Group.Int.Defs
import Mathlib.Algebra.Group.Nat.Defs
import MasterSchema.CommandLine.Run
import MasterSchema.Proofs.IdDomain.Search
import MasterSchema.Proofs.Number.Decimal

/-!
# How an id query is answered

A query text is a value or a name, and only its characters say which.

* A text is a value if it is a numeral of at most 63 bits, whatever zeros lead it (`IsValue`); any
  other text is the name that it is. `ofText_eq` says that it is read so.
* `ValueAnswer` and `NameAnswer` say what is answered, in terms of the domains of the registry.
* `queried_of_make` says what every text is answered with, and that the canonical digits of a number
  ask for that number.
-/

namespace MasterSchema

open Digits

namespace IdQuery

/-! ## 1. What a text asks for -/

/-- A text that is a value: a numeral of 63 bits at most. -/
def IsValue (text : String) : Prop := Numeral text ∧ decimal text ≤ 2 ^ 63 - 1

instance (text : String) : Decidable (IsValue text) :=
  inferInstanceAs (Decidable (Numeral text ∧ decimal text ≤ 2 ^ 63 - 1))

theorem ofText_eq (text : String) :
    ofText text = if IsValue text then .value (decimal text) else .name text := by
  by_cases hnumeral : Numeral text
  · have hall : ∀ c ∈ text.toList, c.isDigit = true := fun c hc => isDigit_iff.2 (hnumeral.2 c hc)
    have hempty : text.toList.isEmpty = false := by simpa using hnumeral.1
    have hbound : ((decimal text : Int) ≤ maxInteger) ↔ decimal text ≤ 2 ^ 63 - 1 := by
      unfold maxInteger
      omega
    rw [ofText, number_eq hall]
    show (if (!text.toList.isEmpty && text.toList.all Char.isDigit
      && decide ((decimal text : Int) ≤ maxInteger)) = true then _ else _) = _
    rw [hempty, List.all_eq_true.2 hall]
    simp only [Bool.not_false, Bool.true_and, decide_eq_true_eq, hbound, IsValue,
      and_iff_right hnumeral]
    rfl
  · rw [if_neg fun h => hnumeral h.1]
    refine if_neg fun h => hnumeral ?_
    simp only [Bool.and_eq_true, List.all_eq_true] at h
    exact ⟨by simpa using h.1.1, fun c hc => isDigit_iff.1 (h.1.2 c hc)⟩

/-- A number in its canonical digits is a value. -/
theorem ofText_toString {n : Nat} (h : n ≤ 2 ^ 63 - 1) : ofText (toString n) = .value n := by
  obtain ⟨hnumeral, hdecimal⟩ : Numeral (toString n) ∧ decimal (toString n) = n :=
    numeral_iff_padded.2 ⟨0, rfl⟩
  have hvalue : IsValue (toString n) := ⟨hnumeral, by omega⟩
  rw [ofText_eq, if_pos hvalue, hdecimal]

/-! ## 2. What is answered -/

/-- The answer to a value: the first domain that covers it. -/
structure ValueAnswer (ids : IdRegistry) (v : Nat) (answer : IdAnswer) : Prop where
  found_iff : answer.found = true ↔ ∃ domain ∈ ids.domains, domain.Covers v
  found : ∀ before domain after, ids.domains = before ++ domain :: after → domain.Covers v →
    (∀ other ∈ before, ¬ other.Covers v) →
    answer.line = toString v ++ " is within " ++ domain.name
  missing : (¬ ∃ domain ∈ ids.domains, domain.Covers v) →
    answer.line = "Not found: " ++ toString v

/-- The answer to a name: the domain that has it. -/
structure NameAnswer (ids : IdRegistry) (name : String) (answer : IdAnswer) : Prop where
  found_iff : answer.found = true ↔ ∃ domain ∈ ids.domains, domain.name = name
  found : ∀ domain ∈ ids.domains, domain.name = name →
    answer.line = name ++ "ID exists (range: " ++ toString domain.first ++ "-"
      ++ toString domain.last ++ ")"
  missing : (¬ ∃ domain ∈ ids.domains, domain.name = name) → answer.line = "Not found: " ++ name

section Answer

variable {ids : IdRegistry}

theorem answer_value_some {v : Int} {domain : IdDomain} (h : ids.findByValue v = some domain) :
    answer ids (.value v) = ⟨toString v ++ " is within " ++ domain.name, true⟩ := by
  rw [answer, h]

theorem answer_value_none {v : Int} (h : ids.findByValue v = none) :
    answer ids (.value v) = ⟨"Not found: " ++ toString v, false⟩ := by
  rw [answer, h]

theorem answer_name_some {name : String} {domain : IdDomain}
    (h : ids.findByName name = some domain) : answer ids (.name name)
      = ⟨domain.name ++ "ID exists (range: " ++ toString domain.first ++ "-"
          ++ toString domain.last ++ ")", true⟩ := by
  rw [answer, h]

theorem answer_name_none {name : String} (h : ids.findByName name = none) :
    answer ids (.name name) = ⟨"Not found: " ++ name, false⟩ := by
  rw [answer, h]

/-- **A value is answered with the first domain that covers it.** -/
theorem valueAnswer (ids : IdRegistry) (v : Nat) : ValueAnswer ids v (answer ids (.value v)) := by
  cases hfind : ids.findByValue v with
  | none =>
    have hnone := IdRegistry.findByValue_eq_none.1 hfind
    rw [answer_value_none hfind]
    refine ⟨iff_of_false nofun fun ⟨domain, hm, hcovers⟩ => hnone domain hm hcovers, ?_,
      fun _ => rfl⟩
    intro before domain after hsplit hcovers _
    exact absurd hcovers (hnone domain (hsplit ▸ List.mem_append_right _ List.mem_cons_self))
  | some first =>
    obtain ⟨before, after, hsplit, hcovers, _⟩ := IdRegistry.findByValue_eq_some.1 hfind
    have hthere : ∃ domain ∈ ids.domains, domain.Covers v :=
      ⟨first, hsplit ▸ List.mem_append_right _ List.mem_cons_self, hcovers⟩
    rw [answer_value_some hfind]
    refine ⟨iff_of_true rfl hthere, ?_, fun h => absurd hthere h⟩
    intro before domain after hsplit hcovers hbefore
    have hother := IdRegistry.findByValue_eq_some.2 ⟨before, after, hsplit, hcovers, hbefore⟩
    rw [Option.some.inj (hfind.symm.trans hother)]
    rfl

/-- **A name is answered with the domain that has it.** -/
theorem nameAnswer (h : IdRegistry.Sound ids.domains) (name : String) :
    NameAnswer ids name (answer ids (.name name)) := by
  cases hfind : ids.findByName name with
  | none =>
    have hnone := IdRegistry.findByName_eq_none.1 hfind
    rw [answer_name_none hfind]
    exact ⟨iff_of_false nofun fun ⟨domain, hm, hname⟩ => hnone domain hm hname,
      fun domain hm hname => absurd hname (hnone domain hm), fun _ => rfl⟩
  | some found =>
    have hthere : ∃ domain ∈ ids.domains, domain.name = name :=
      ⟨found, (IdRegistry.findByName_eq_some h).1 hfind⟩
    rw [answer_name_some hfind]
    refine ⟨iff_of_true rfl hthere, fun domain hm hname => ?_, fun h => absurd hthere h⟩
    have hother := (IdRegistry.findByName_eq_some h).2 ⟨hm, hname⟩
    obtain rfl := Option.some.inj (hfind.symm.trans hother)
    rw [hname]

end Answer

/-! ## 3. Queries -/

/-- How a registry answers a text. -/
structure Queried (ids : IdRegistry) (text : String) : Prop where
  value_iff : (∃ v, ofText text = .value v) ↔ Numeral text ∧ decimal text ≤ 2 ^ 63 - 1
  value : IsValue text → ofText text = .value (decimal text)
    ∧ ValueAnswer ids (decimal text) (answer ids (ofText text))
  /-- A number is printed as the text without the zeros in front. -/
  canonical : IsValue text →
    ∃ zeros, text.toList = List.replicate zeros '0' ++ (toString (decimal text)).toList
  name : ¬ IsValue text → ofText text = .name text ∧ NameAnswer ids text (answer ids (ofText text))
  /-- The command prints the line of the answer, and it ends with 0 if there is a domain and with 1
  if there is none. -/
  printed : ∀ config fs, (DataFile.idRegistry fs config.idRegistryPath).result = .ok ids →
    (CommandLine.runQuery config text fs).output = [(answer ids (ofText text)).line]
      ∧ (CommandLine.runQuery config text fs).code
        = (if (answer ids (ofText text)).found then 0 else 1)
      ∧ (CommandLine.runQuery config text fs).failure = none

theorem runQuery_of_ok {config : Config} {fs : FileSystem} {ids : IdRegistry} (text : String)
    (h : (DataFile.idRegistry fs config.idRegistryPath).result = .ok ids) :
    (CommandLine.runQuery config text fs).output = [(answer ids (ofText text)).line]
      ∧ (CommandLine.runQuery config text fs).code
        = (if (answer ids (ofText text)).found then 0 else 1)
      ∧ (CommandLine.runQuery config text fs).failure = none := by
  unfold CommandLine.runQuery
  dsimp only
  split <;> rename_i hrun <;> rw [hrun] at h
  · cases h
  · obtain rfl := Except.ok.inj h
    exact ⟨rfl, rfl, rfl⟩

/-- **A text of digits asks for the value that it writes, if that has at most 63 bits, and the answer
is the first domain that covers it; any other text asks for the domain of that name.** The canonical
digits of a number ask for that number. -/
theorem queried_of_make {domains : List IdDomain} {ids : IdRegistry}
    (h : IdRegistry.make domains = .ok ids) :
    (∀ text, Queried ids text)
      ∧ ∀ v : Int, 0 ≤ v → v ≤ 2 ^ 63 - 1 → ofText (toString v) = .value v
        ∧ (∀ domain, ids.findByValue v = some domain → answer ids (ofText (toString v))
            = ⟨toString v ++ " is within " ++ domain.name, true⟩)
        ∧ (ids.findByValue v = none → answer ids (ofText (toString v))
            = ⟨"Not found: " ++ toString v, false⟩) := by
  obtain ⟨hsound, rfl⟩ := IdRegistry.make_eq_ok.1 h
  refine ⟨fun text => ⟨?_, fun hvalue => ?_, fun hvalue => ?_, fun hname => ?_,
    fun _ _ => runQuery_of_ok text⟩, fun v hpos hbound => ?_⟩
  · rw [ofText_eq]
    by_cases hvalue : IsValue text
    · rw [if_pos hvalue]
      exact iff_of_true ⟨_, rfl⟩ hvalue
    · rw [if_neg hvalue]
      exact iff_of_false (fun ⟨_, he⟩ => nomatch he) hvalue
  · rw [ofText_eq, if_pos hvalue]
    exact ⟨rfl, valueAnswer _ _⟩
  · exact numeral_iff_padded.1 ⟨hvalue.1, rfl⟩
  · rw [ofText_eq, if_neg hname]
    exact ⟨rfl, nameAnswer hsound text⟩
  · obtain ⟨n, rfl⟩ := Int.eq_ofNat_of_zero_le hpos
    have hread : ofText (toString (n : Int)) = .value n := ofText_toString (by omega)
    rw [hread]
    exact ⟨rfl, fun _ => answer_value_some, answer_value_none⟩

/-- Zeros in front make no other value, one more than the greatest value is a name, and so is a text
with a sign. -/
theorem queried_stages : IdRegistry.make IdRegistry.stages = .ok ⟨IdRegistry.stages⟩
    ∧ (∀ text, Queried ⟨IdRegistry.stages⟩ text)
    ∧ IsValue "00000000000000000000010299" ∧ ¬ IsValue "9223372036854775808" ∧ ¬ IsValue "+5"
    ∧ answer ⟨IdRegistry.stages⟩ (ofText "00000000000000000000010299")
      = ⟨"10299 is within Radical", true⟩
    ∧ answer ⟨IdRegistry.stages⟩ (ofText "9223372036854775808")
      = ⟨"Not found: 9223372036854775808", false⟩
    ∧ answer ⟨IdRegistry.stages⟩ (ofText (toString (20000 : Int)))
      = ⟨"20000 is within Stage", true⟩ := by
  have hmake : IdRegistry.make IdRegistry.stages = .ok ⟨IdRegistry.stages⟩ := by decide
  obtain ⟨hqueried, hcanonical⟩ := queried_of_make hmake
  have hstage : (⟨IdRegistry.stages⟩ : IdRegistry).findByValue 20000
      = some ⟨"Stage", 20000, 20999⟩ := by decide
  exact ⟨hmake, hqueried, by decide, by decide, by decide, by decide, by decide,
    (hcanonical 20000 (by decide) (by decide)).2.1 _ hstage⟩

end IdQuery

end MasterSchema
