import MasterSchema.Proofs.Registry.Names

/-!
# What accessors are called

An accessor is the name of its field in camel case, word by word. What a character becomes hangs on
the one before it alone, so the name can be read without its words (`humps`,
`toList_accessorName`).

* Case gives every character a form: capitals and small letters are forms of each other, all others
  are their own (`cased`).
* An accessor has the letters and digits of the field's name, up to their case, and no other
  character (`isAlphanum_of_mem_humps`, `lowered_accessorName`).
* So it is an identifier exactly if the first of them is a letter (`isIdentifier_accessorName`).
* Every text without an underscore is the accessor of some name (`humps_spelling`).
-/

namespace MasterSchema.ResolvedField

/-! ## 1. Case -/

theorem isUpper_iff {c : Char} : c.isUpper = true ↔ 65 ≤ c.toNat ∧ c.toNat ≤ 90 :=
  decide_eq_true_iff.trans (and_congr UInt32.le_iff_toNat_le UInt32.le_iff_toNat_le)

theorem isLower_iff {c : Char} : c.isLower = true ↔ 97 ≤ c.toNat ∧ c.toNat ≤ 122 :=
  Bool.and_eq_true_iff.trans (and_congr (decide_eq_true_iff.trans UInt32.le_iff_toNat_le)
    (decide_eq_true_iff.trans UInt32.le_iff_toNat_le))

theorem isAlpha_eq (c : Char) : c.isAlpha = (c.isUpper || c.isLower) := rfl

/-- What case is to a character: a small letter and a capital are forms of each other, and any other
character is its own form. -/
inductive Cased (c : Char) : Prop where
  | small (upper : c.isUpper = false) (lower : c.isLower = true) (toLower : c.toLower = c)
      (capital : c.toUpper.isUpper = true) (back : c.toUpper.toLower = c)
  | capital (upper : c.isUpper = true) (toUpper : c.toUpper = c) (small : c.toLower.isLower = true)
      (noCapital : c.toLower.isUpper = false) (again : c.toLower.toLower = c.toLower)
      (back : c.toLower.toUpper = c)
  | neither (upper : c.isUpper = false) (toLower : c.toLower = c) (toUpper : c.toUpper = c)

/-- One of 26 characters in a row. -/
theorem exists_eq_ofNat {c : Char} {first : Nat} (hlow : first ≤ c.toNat)
    (hhigh : c.toNat ≤ first + 25) : ∃ i : Fin 26, c = Char.ofNat (first + i) :=
  ⟨⟨c.toNat - first, by omega⟩, by rw [Nat.add_sub_of_le hlow, Char.ofNat_toNat]⟩

/-- The letters are looked through one by one, other characters are left alone by definition. -/
theorem cased (c : Char) : Cased c := by
  cases hupper : c.isUpper with
  | true =>
    have hall : ∀ i : Fin 26, (Char.ofNat (65 + i)).toUpper = Char.ofNat (65 + i)
        ∧ (Char.ofNat (65 + i)).toLower.isLower = true
        ∧ (Char.ofNat (65 + i)).toLower.isUpper = false
        ∧ (Char.ofNat (65 + i)).toLower.toLower = (Char.ofNat (65 + i)).toLower
        ∧ (Char.ofNat (65 + i)).toLower.toUpper = Char.ofNat (65 + i) := by
      decide
    obtain ⟨hlow, hhigh⟩ := isUpper_iff.1 hupper
    obtain ⟨i, rfl⟩ := exists_eq_ofNat hlow hhigh
    obtain ⟨htoUpper, hsmall, halone, hagain, hback⟩ := hall i
    exact .capital hupper htoUpper hsmall halone hagain hback
  | false =>
    have hlower : c.toLower = c := dif_neg (of_decide_eq_false hupper)
    cases hsmall : c.isLower with
    | true =>
      have hall : ∀ i : Fin 26, (Char.ofNat (97 + i)).toUpper.isUpper = true
          ∧ (Char.ofNat (97 + i)).toUpper.toLower = Char.ofNat (97 + i) := by
        decide
      obtain ⟨hlow, hhigh⟩ := isLower_iff.1 hsmall
      obtain ⟨i, rfl⟩ := exists_eq_ofNat hlow hhigh
      obtain ⟨hcapital, hback⟩ := hall i
      exact .small hupper hsmall hlower hcapital hback
    | false =>
      have hcapital : c.toUpper = c := dif_neg fun h => Bool.eq_false_iff.1 hsmall
        (Bool.and_eq_true_iff.2 ⟨decide_eq_true h.1, decide_eq_true h.2⟩)
      exact .neither hupper hlower hcapital

/-- A character in lower case is no capital. -/
theorem isUpper_toLower (c : Char) : c.toLower.isUpper = false := by
  cases cased c with
  | small hupper _ htoLower _ _ => rwa [htoLower]
  | capital _ _ _ halone _ _ => exact halone
  | neither hupper htoLower _ => rwa [htoLower]

/-- A capital is that of a small letter. -/
theorem small_of_isUpper {c : Char} (h : c.isUpper = true) :
    c.toLower.isLower = true ∧ c.toLower.toUpper = c := by
  cases cased c with
  | small hupper _ _ _ _ => cases h.symm.trans hupper
  | capital _ _ hsmall _ _ hback => exact ⟨hsmall, hback⟩
  | neither hupper _ _ => cases h.symm.trans hupper

theorem toLower_of_not_isUpper {c : Char} (h : ¬ c.isUpper = true) : c.toLower = c := by
  cases cased c with
  | small _ _ htoLower _ _ => exact htoLower
  | capital hupper _ _ _ _ _ => exact absurd hupper h
  | neither _ htoLower _ => exact htoLower

/-- What a character becomes is that character up to case. -/
theorem toLower_form (c : Char) (capital : Bool) :
    (if capital then c.toUpper else c.toLower).toLower = c.toLower := by
  cases cased c with
  | small _ _ htoLower _ hback => cases capital <;> simp [htoLower, hback]
  | capital _ htoUpper _ _ hagain _ => cases capital <;> simp [htoUpper, hagain]
  | neither _ htoLower htoUpper => cases capital <;> simp [htoLower, htoUpper]

theorem isAlpha_form (c : Char) (capital : Bool) :
    (if capital then c.toUpper else c.toLower).isAlpha = c.isAlpha := by
  cases cased c with
  | small _ hlower htoLower hcapital _ =>
    cases capital <;> simp [isAlpha_eq, htoLower, hlower, hcapital]
  | capital hupper htoUpper hsmall _ _ _ =>
    cases capital <;> simp [isAlpha_eq, htoUpper, hupper, hsmall]
  | neither _ htoLower htoUpper => cases capital <;> simp [htoLower, htoUpper]

theorem isAlphanum_form {c : Char} (h : c.isAlphanum = true) (capital : Bool) :
    (if capital then c.toUpper else c.toLower).isAlphanum = true := by
  by_cases halpha : c.isAlpha = true
  · rw [Char.isAlphanum, isAlpha_form, halpha, Bool.true_or]
  · cases cased c with
    | small _ hlower _ _ _ => exact absurd (by rw [isAlpha_eq, hlower, Bool.or_true]) halpha
    | capital hupper _ _ _ _ _ => exact absurd (by rw [isAlpha_eq, hupper, Bool.true_or]) halpha
    | neither _ htoLower htoUpper => cases capital <;> simpa [htoLower, htoUpper] using h

/-! ## 2. Camel case without words -/

/-- Camel case character by character: an underscore vanishes and makes a capital of what follows,
    all else is in lower case. -/
def humps (capital : Bool) : List Char → List Char
  | [] => []
  | c :: rest =>
    if c = '_' then humps true rest
    else (if capital then c.toUpper else c.toLower) :: humps false rest

/-- A first word in lower case is read without a capital, one that is capitalized with one. -/
theorem humps_eq : ∀ cs : List Char, humps false cs = camelCase (cs.splitOn '_')
    ∧ humps true cs = ((cs.splitOn '_').map capitalized).flatten
  | [] => ⟨rfl, rfl⟩
  | c :: cs => by
      obtain ⟨hlower, hcapital⟩ := humps_eq cs
      rw [List.splitOn_cons_eq_if_modifyHead]
      by_cases hc : c = '_'
      · rw [if_pos (beq_iff_eq.2 hc), humps, humps, if_pos hc, if_pos hc, hcapital]
        exact ⟨rfl, rfl⟩
      · obtain ⟨word, rest, hwords⟩ := List.exists_cons_of_ne_nil (List.splitOn_ne_nil '_' cs)
        rw [if_neg fun e => hc (beq_iff_eq.1 e), humps, humps, if_neg hc, if_neg hc, hlower, hwords]
        exact ⟨rfl, rfl⟩

theorem toList_accessorName (field : ResolvedField) :
    field.accessorName.toList = humps false field.name.toList := by
  rw [accessorName, String.toList_ofList, (humps_eq field.name.toList).1]

/-! ## 3. Letters and digits -/

theorem isAlphanum_of_part {c : Char} (h : isIdentifierPart c = true) (hc : c ≠ '_') :
    c.isAlphanum = true := by
  simpa [isIdentifierPart, hc] using h

/-- **Nothing but letters and digits is left of the characters of an identifier.** -/
theorem isAlphanum_of_mem_humps : ∀ {cs : List Char} {capital : Bool},
    (∀ c ∈ cs, isIdentifierPart c = true) → ∀ c ∈ humps capital cs, c.isAlphanum = true
  | [], _, _, c, hc => absurd hc List.not_mem_nil
  | first :: rest, capital, h, c, hc => by
      have hrest : ∀ c ∈ rest, isIdentifierPart c = true :=
        fun c hc => h c (List.mem_cons_of_mem first hc)
      unfold humps at hc
      split at hc
      · exact isAlphanum_of_mem_humps hrest c hc
      · rename_i hfirst
        rcases List.mem_cons.1 hc with rfl | hc
        · exact isAlphanum_form (isAlphanum_of_part (h first List.mem_cons_self) hfirst) capital
        · exact isAlphanum_of_mem_humps hrest c hc

/-- A text as it is if case does not count. -/
def lowered (cs : List Char) : List Char := cs.map Char.toLower

/-- A name as it is if neither case nor underscores count. -/
def bare (name : String) : List Char := lowered (name.toList.filter (· != '_'))

/-- The letters and digits of a name stay, up to their case. -/
theorem lowered_humps : ∀ (cs : List Char) (capital : Bool),
    lowered (humps capital cs) = lowered (cs.filter (· != '_'))
  | [], _ => rfl
  | c :: rest, capital => by
      unfold humps
      by_cases hc : c = '_'
      · rw [if_pos hc, lowered_humps rest true, List.filter_cons_of_neg (by simp [hc])]
      · have hrest : (humps false rest).map Char.toLower
            = (rest.filter (· != '_')).map Char.toLower := lowered_humps rest false
        rw [if_neg hc, List.filter_cons_of_pos (by simp [hc]), lowered, lowered, List.map_cons,
          List.map_cons, toLower_form, hrest]

/-- **An accessor is its field's name, up to case and underscores.** -/
theorem lowered_accessorName (field : ResolvedField) :
    lowered field.accessorName.toList = bare field.name := by
  rw [toList_accessorName, lowered_humps]
  rfl

/-! ## 4. Identifiers -/

/-- The first character of an accessor is a letter if the first one that is no underscore is. -/
theorem isAlpha_head?_humps : ∀ (cs : List Char) (capital : Bool),
    (humps capital cs).head?.map Char.isAlpha = (cs.find? (· != '_')).map Char.isAlpha
  | [], _ => rfl
  | c :: rest, capital => by
      unfold humps
      by_cases hc : c = '_'
      · rw [if_pos hc, isAlpha_head?_humps rest true, List.find?_cons_of_neg (by simp [hc])]
      · rw [if_neg hc, List.find?_cons_of_pos (by simp [hc]), List.head?_cons, Option.map_some,
          isAlpha_form, Option.map_some]

/-- A text of letters and digits is an identifier if it begins with a letter. -/
theorem isIdentifier_of_alphanumeric {name : String}
    (h : ∀ c ∈ name.toList, c.isAlphanum = true) :
    isIdentifier name = true ↔ name.toList.head?.map Char.isAlpha = some true := by
  unfold isIdentifier
  cases hname : name.toList with
  | nil => simp
  | cons first rest =>
    rw [hname] at h
    obtain ⟨hfirst, hrest⟩ := List.forall_mem_cons.1 h
    have hne : first ≠ '_' := by
      rintro rfl
      cases hfirst
    have hall : rest.all isIdentifierPart = true :=
      List.all_eq_true.2 fun c hc => by simp [isIdentifierPart, hrest c hc]
    simp [isIdentifierStart, hne, hall]

section Names

variable {field : ResolvedField} (h : isIdentifier field.name = true)

include h

theorem isAlphanum_of_mem_accessorName : ∀ c ∈ field.accessorName.toList, c.isAlphanum = true := by
  rw [toList_accessorName]
  exact isAlphanum_of_mem_humps (isIdentifierPart_of_mem h)

theorem underscore_not_mem_accessorName : '_' ∉ field.accessorName.toList := by
  intro hm
  cases isAlphanum_of_mem_accessorName h '_' hm

/-- **An accessor is an identifier exactly if the first character of the field's name that is no
underscore is a letter.** -/
theorem isIdentifier_accessorName : isIdentifier field.accessorName = true ↔
    ∃ first, field.name.toList.find? (· != '_') = some first ∧ first.isAlpha = true := by
  rw [isIdentifier_of_alphanumeric (isAlphanum_of_mem_accessorName h), toList_accessorName,
    isAlpha_head?_humps, Option.map_eq_some_iff]

end Names

/-! ## 5. Names for accessors -/

/-- A name that a text is the camel case of: every capital begins a word. -/
def spelling : List Char → List Char
  | [] => []
  | c :: rest => if c.isUpper then '_' :: c.toLower :: spelling rest else c :: spelling rest

theorem underscore_ne_toLower {c : Char} (h : c.isUpper = true) : c.toLower ≠ '_' := by
  intro he
  have hsmall := (small_of_isUpper h).1
  rw [he] at hsmall
  cases hsmall

/-- **A text without an underscore is the camel case of its spelling.** -/
theorem humps_spelling : ∀ {cs : List Char}, '_' ∉ cs → humps false (spelling cs) = cs
  | [], _ => rfl
  | c :: rest, h => by
      obtain ⟨hc, hrest⟩ := not_or.1 (mt List.mem_cons.2 h)
      unfold spelling
      split
      · rename_i hupper
        rw [humps, if_pos rfl, humps, if_neg (underscore_ne_toLower hupper), if_pos rfl,
          (small_of_isUpper hupper).2, humps_spelling hrest]
      · rename_i hupper
        rw [humps, if_neg fun e => hc e.symm, if_neg Bool.false_ne_true,
          toLower_of_not_isUpper hupper, humps_spelling hrest]

/-- The spelling of letters, digits and underscores has no other characters. -/
theorem isIdentifierPart_spelling : ∀ {cs : List Char}, (∀ c ∈ cs, isIdentifierPart c = true) →
    ∀ c ∈ spelling cs, isIdentifierPart c = true
  | [], _, c, hc => absurd hc List.not_mem_nil
  | first :: rest, h, c, hc => by
      obtain ⟨hfirst, hrest⟩ := List.forall_mem_cons.1 h
      unfold spelling at hc
      split at hc
      · rename_i hupper
        rcases List.mem_cons.1 hc with rfl | hc
        · rfl
        · rcases List.mem_cons.1 hc with rfl | hc
          · simp [isIdentifierPart, Char.isAlphanum, isAlpha_eq, (small_of_isUpper hupper).1]
          · exact isIdentifierPart_spelling hrest c hc
      · rcases List.mem_cons.1 hc with rfl | hc
        · exact hfirst
        · exact isIdentifierPart_spelling hrest c hc

end MasterSchema.ResolvedField
