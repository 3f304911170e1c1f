import Mathlib.Data.List.Basic
import MasterSchema.Text

/-!
# Reading texts back

How a text that was put together is taken apart again.

* `cutFirst` and `cutLast` cut a list at the first or last occurrence of a mark; what was put around
  a mark comes back if the mark is not in the part that is cut off (`cutFirst_append`,
  `cutLast_append`).
* `linesOf` reads what `ofLines` writes, if no line has a line feed in it (`linesOf_ofLines`); a
  mark that is found in the text is found in a line (`line_of_infix`).
* `listed` reads what `joined ", "` writes, if no member has a comma in it (`listed_joined`).
-/

namespace MasterSchema.Text

/-! ## 1. Cutting at a mark -/

section Cutting

variable {α : Type} [DecidableEq α]

/-- What stands before and behind the first mark. -/
def cutFirst (mark : α) : List α → Option (List α × List α)
  | [] => none
  | x :: l =>
    if x = mark then some ([], l) else (cutFirst mark l).map fun cut => (x :: cut.1, cut.2)

/-- What stands before and behind the last mark. -/
def cutLast (mark : α) (l : List α) : Option (List α × List α) :=
  (cutFirst mark l.reverse).map fun cut => (cut.2.reverse, cut.1.reverse)

theorem cutFirst_append {mark : α} : ∀ {front : List α}, mark ∉ front → ∀ back : List α,
    cutFirst mark (front ++ mark :: back) = some (front, back)
  | [], _, back => by simp [cutFirst]
  | x :: front, h, back => by
      have hx : x ≠ mark := fun e => h (e ▸ List.mem_cons_self)
      have hrest : mark ∉ front := fun hm => h (List.mem_cons_of_mem x hm)
      simp [cutFirst, hx, cutFirst_append hrest back]

theorem cutLast_append {mark : α} {back : List α} (h : mark ∉ back) (front : List α) :
    cutLast mark (front ++ mark :: back) = some (front, back) := by
  have hrev : (front ++ mark :: back).reverse = back.reverse ++ mark :: front.reverse := by simp
  have hback : mark ∉ back.reverse := by simpa using h
  simp [cutLast, hrev, cutFirst_append hback]

/-- What is written behind a prefix comes back. -/
theorem dropPrefix?_append (front back : List α) :
    (front ++ back).dropPrefix? front = some back :=
  List.dropPrefix?_append_of_beq back (by simp)

theorem dropSuffix?_append (front back : List α) :
    (front ++ back).dropSuffix? back = some front :=
  List.dropSuffix?_eq_some_iff.2 ⟨back, rfl, by simp⟩

end Cutting

/-- A text ends as what is written last. -/
theorem getLast?_append {front close : String} (h : close ≠ "") :
    (front ++ close).toList.getLast? = close.toList.getLast? := by
  have hne : close.toList ≠ [] := fun e => h (String.toList_eq_nil_iff.1 e)
  rw [String.toList_append, List.getLast?_append_of_ne_nil _ hne]

/-- A line with an end of its own is no line that ends otherwise. -/
theorem ne_of_last {front close line : String} (hclose : close ≠ "")
    (h : line.toList.getLast? ≠ close.toList.getLast?) : front ++ close ≠ line := by
  rintro rfl
  exact h (getLast?_append hclose)

/-- What a line has between an opening and a closing. -/
def stripped? (opening closing line : String) : Option (List Char) := do
  let rest ← line.toList.dropPrefix? opening.toList
  rest.dropSuffix? closing.toList

section Stripping

variable {opening closing line : String} {inner : List Char}

theorem stripped?_of_eq (h : line.toList = opening.toList ++ (inner ++ closing.toList)) :
    stripped? opening closing line = some inner := by
  simp only [stripped?, h, dropPrefix?_append, dropSuffix?_append, Option.bind_eq_bind,
    Option.bind_some]

/-- A line that is stripped begins with the opening and ends with the closing. -/
theorem stripped?_eq_some (h : stripped? opening closing line = some inner) :
    line.toList = opening.toList ++ (inner ++ closing.toList) := by
  obtain ⟨rest, hrest, hinner⟩ := Option.bind_eq_some_iff.1 h
  obtain ⟨front, hline, hfront⟩ := List.dropPrefix?_eq_some_iff.1 hrest
  obtain ⟨back, rfl, hback⟩ := List.dropSuffix?_eq_some_iff.1 hinner
  rw [hline, eq_of_beq hfront, eq_of_beq hback]

theorem stripped?_of_head {c : Char} (hopening : opening.toList.head? = some c)
    (h : line.toList.head? ≠ some c) : stripped? opening closing line = none := by
  refine Option.eq_none_iff_forall_ne_some.2 fun inner hinner => h ?_
  rw [stripped?_eq_some hinner, List.head?_append, hopening]
  rfl

theorem stripped?_of_last {c : Char} (hclosing : closing.toList.getLast? = some c)
    (h : line.toList.getLast? ≠ some c) : stripped? opening closing line = none := by
  refine Option.eq_none_iff_forall_ne_some.2 fun inner hinner => h ?_
  rw [stripped?_eq_some hinner, List.getLast?_append, List.getLast?_append, hclosing]
  rfl

end Stripping

/-! ## 2. Lines -/

/-- The lines of a text; each is ended by a line feed. -/
def linesOf (text : String) : List String :=
  ((text.toList.splitOn '\n').map String.ofList).dropLast

/-- **Lines that are written one after the other are read back.** -/
theorem linesOf_ofLines : ∀ {lines : List String}, (∀ line ∈ lines, '\n' ∉ line.toList) →
    linesOf (ofLines lines) = lines
  | [], _ => by simp [linesOf, ofLines]
  | line :: rest, h => by
      have hline : '\n' ∉ line.toList := h line List.mem_cons_self
      have ih := linesOf_ofLines fun other ho => h other (List.mem_cons_of_mem line ho)
      have htext : (ofLines (line :: rest)).toList
          = line.toList ++ '\n' :: (ofLines rest).toList := by
        simp [ofLines]
      have hne : ((ofLines rest).toList.splitOn '\n').map String.ofList ≠ [] := by
        simp
      rw [linesOf, htext, List.splitOn_append_cons_self, List.splitOn_eq_singleton hline,
        List.singleton_append, List.map_cons, List.dropLast_cons_of_ne_nil hne,
        String.ofList_toList]
      exact congrArg _ ih

theorem infix_ofLines : ∀ {lines : List String} {line : String}, line ∈ lines →
    line.toList <:+: (ofLines lines).toList
  | first :: rest, line, hl => by
      rw [ofLines, String.toList_append, String.toList_append]
      rcases List.mem_cons.1 hl with rfl | hl
      · exact ⟨[], "\n".toList ++ (ofLines rest).toList, by simp⟩
      · exact (infix_ofLines hl).trans (List.suffix_append _ _).isInfix

/-- **A mark without a line feed stands in one line**, and what is behind it begins with the rest of
that line. -/
theorem line_of_infix {mark : List Char} (hne : mark ≠ []) (hmark : '\n' ∉ mark) :
    ∀ {lines : List String} {front back : List Char},
      (ofLines lines).toList = front ++ (mark ++ back) →
      ∃ line ∈ lines, ∃ before behind later,
        line.toList = before ++ (mark ++ behind) ∧ back = behind ++ '\n' :: later
  | [], front, back, h => by
      have hnil := List.append_eq_nil_iff.1 (List.append_eq_nil_iff.1 h.symm).2
      exact absurd hnil.1 hne
  | line :: rest, front, back, h => by
      have htext : (ofLines (line :: rest)).toList
          = line.toList ++ '\n' :: (ofLines rest).toList := by
        simp [ofLines]
      rw [htext] at h
      rcases List.append_eq_append_iff.1 h with ⟨gap, hfront, hgap⟩ | ⟨found, hline, hfound⟩
      · -- the mark stands behind this line
        cases gap with
        | nil =>
          obtain ⟨c, mark, rfl⟩ := List.exists_cons_of_ne_nil hne
          rw [List.nil_append, List.cons_append] at hgap
          exact absurd ((List.cons.inj hgap).1 ▸ List.mem_cons_self) hmark
        | cons c gap =>
          obtain ⟨other, ho, hother⟩ := line_of_infix hne hmark (List.cons.inj hgap).2
          exact ⟨other, List.mem_cons_of_mem line ho, hother⟩
      · -- it begins in this line, and no line feed is in it
        refine ⟨line, List.mem_cons_self, front, ?_⟩
        rcases List.append_eq_append_iff.1 hfound with ⟨behind, rfl, hback⟩ | ⟨cut, hcut, hlater⟩
        · exact ⟨behind, _, hline, hback⟩
        · cases cut with
          | nil => exact ⟨[], _, by simpa [hcut] using hline, hlater.symm⟩
          | cons c cut =>
            have hmem : c ∈ mark := hcut ▸ List.mem_append_right _ List.mem_cons_self
            rw [List.cons_append] at hlater
            exact absurd ((List.cons.inj hlater).1 ▸ hmem) hmark

/-! ## 3. Lists -/

/-- The members of a list with commas, without the blank that follows a comma. -/
def listed (text : List Char) : List (List Char) :=
  match text.splitOn ',' with
  | [] => []
  | first :: rest => first :: rest.map fun part => (part.dropPrefix? [' ']).getD part

theorem splitOn_joined : ∀ {first : String} {rest : List String},
    (∀ member ∈ first :: rest, ',' ∉ member.toList) →
      (joined ", " (first :: rest)).toList.splitOn ','
        = first.toList :: rest.map fun member => ' ' :: member.toList
  | first, [], h => List.splitOn_eq_singleton (h first List.mem_cons_self)
  | first, next :: rest, h => by
      have hfirst : ',' ∉ first.toList := h first List.mem_cons_self
      have ih := splitOn_joined fun member hm => h member (List.mem_cons_of_mem first hm)
      have htext : (joined ", " (first :: next :: rest)).toList
          = first.toList ++ ',' :: ' ' :: (joined ", " (next :: rest)).toList := by
        simp [joined]
      rw [htext, List.splitOn_append_cons_self, List.splitOn_eq_singleton hfirst,
        List.splitOn_cons_eq_if_modifyHead, ih]
      simp

/-- **Members that are written with commas between them are read back.** -/
theorem listed_joined {members : List String} (hne : members ≠ [])
    (h : ∀ member ∈ members, ',' ∉ member.toList) :
    listed (joined ", " members).toList = members.map String.toList := by
  cases members with
  | nil => exact absurd rfl hne
  | cons first rest =>
    have hdrop : ∀ member : String,
        ((' ' :: member.toList).dropPrefix? [' ']).getD (' ' :: member.toList) = member.toList :=
      fun member => by simp [List.dropPrefix?]
    simp only [listed, splitOn_joined h, List.map_map, List.map_cons, Function.comp_def, hdrop]

theorem not_mem_joined {c : Char} {separator : String} (hseparator : c ∉ separator.toList) :
    ∀ {members : List String}, (∀ member ∈ members, c ∉ member.toList) →
      c ∉ (joined separator members).toList
  | [], _ => by simp [joined]
  | [member], h => h member List.mem_cons_self
  | member :: next :: rest, h => by
      have hmember := h member List.mem_cons_self
      have ih := not_mem_joined hseparator fun other ho => h other (List.mem_cons_of_mem member ho)
      simp [joined, hmember, hseparator, ih]

/-! ## 4. Lists over lines -/

section Separators

variable {separator closing : String}

/-- What holds of every item, however it is ended, holds of every line of a list over lines. -/
theorem forall_withSeparators {α : Type} {write : α → String} {P : String → Prop} :
    ∀ {items : List α}, items ≠ [] → (∀ item ∈ items, ∀ close,
      (close = separator ∨ close = closing) → P (write item ++ close)) →
      ∀ line ∈ withSeparators separator closing (items.map write), P line
  | [], hne, _, _, _ => absurd rfl hne
  | [item], _, h, line, hl => by
      rw [List.mem_singleton.1 hl]
      exact h item List.mem_cons_self closing (Or.inr rfl)
  | item :: next :: rest, _, h, line, hl => by
      rcases List.mem_cons.1 hl with rfl | hl
      · exact h item List.mem_cons_self separator (Or.inl rfl)
      · exact forall_withSeparators (List.cons_ne_nil next rest)
          (fun other ho => h other (List.mem_cons_of_mem item ho)) line hl

/-- Every item has a line of its own. -/
theorem mem_withSeparators {α : Type} {write : α → String} : ∀ {items : List α} {item : α},
    item ∈ items →
      ∃ close, write item ++ close ∈ withSeparators separator closing (items.map write)
  | [only], item, hm => by
      rw [List.mem_singleton.1 hm]
      exact ⟨closing, List.mem_cons_self⟩
  | first :: next :: rest, item, hm => by
      rcases List.mem_cons.1 hm with rfl | hm
      · exact ⟨separator, List.mem_cons_self⟩
      · obtain ⟨close, hclose⟩ := mem_withSeparators hm
        exact ⟨close, List.mem_cons_of_mem _ hclose⟩

/-- A reader that does not mind what ends a line reads a list over lines item by item. -/
theorem map_withSeparators {α β : Type} {write : α → String} {read : String → β} {meant : α → β} :
    ∀ {items : List α}, items ≠ [] → (∀ item ∈ items, ∀ close,
      (close = separator ∨ close = closing) → read (write item ++ close) = meant item) →
      (withSeparators separator closing (items.map write)).map read = items.map meant
  | [], hne, _ => absurd rfl hne
  | [item], _, h => by
      simp [withSeparators, h item List.mem_cons_self closing (Or.inr rfl)]
  | item :: next :: rest, _, h => by
      have hitem := h item List.mem_cons_self separator (Or.inl rfl)
      have ih := map_withSeparators (List.cons_ne_nil next rest) fun other ho =>
        h other (List.mem_cons_of_mem item ho)
      simp only [withSeparators, List.map_cons] at ih ⊢
      rw [hitem, ih]

end Separators

/-! ## 5. Reading lines -/

/-- What a reader makes of the first line that it reads. -/
theorem findSome?_append {α β : Type} (read : α → Option β) {front : List α}
    (h : ∀ line ∈ front, read line = none) {line : α} {meant : β} (hline : read line = some meant)
    (back : List α) : (front ++ line :: back).findSome? read = some meant := by
  rw [List.findSome?_append, List.findSome?_eq_none_iff.2 h, Option.none_or,
    List.findSome?_cons_of_isSome (by rw [hline]; rfl), hline]

theorem mapM_eq_some {α β γ : Type} {read : α → Option β} {meant : γ → β} : ∀ {lines : List α}
    {items : List γ}, lines.map read = items.map (fun item => some (meant item)) →
      lines.mapM read = some (items.map meant)
  | [], [], _ => rfl
  | line :: lines, item :: items, h => by
      obtain ⟨hline, hrest⟩ := List.cons.inj h
      simp [hline, mapM_eq_some hrest]

end MasterSchema.Text
