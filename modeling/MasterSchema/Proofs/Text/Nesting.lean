import Mathlib.Data.List.Basic
import MasterSchema.Proofs.Text.Cutting

/-!
# Brackets in texts

Parentheses, square brackets and braces are balanced if they come in pairs, one inside the other or
one behind the other (`Balanced`). Whether they are is read from left to right: `nest` keeps the
brackets that are to be closed yet, and a text is balanced exactly if none is left
(`balanced_iff`).

* A text written piece by piece is read piece by piece (`nest_append`, `nest_ofLines`).
* A neutral piece opens and closes nothing (`Neutral`); a text without brackets is neutral
  (`neutral_of_plain`).
-/

namespace MasterSchema.Text

/-! ## 1. Balanced brackets -/

/-- The bracket that closes an opening one. -/
def closing? (c : Char) : Option Char :=
  if c = '(' then some ')'
  else if c = '[' then some ']'
  else if c = '\x7b' then some '\x7d'
  else none

def isClosing (c : Char) : Bool :=
  c == ')' || c == ']' || c == '\x7d'

/-- Characters in which every opening bracket is closed, and what is between is balanced too. -/
inductive Balanced : List Char → Prop where
  | nil : Balanced []
  | other {c : Char} {cs : List Char} : closing? c = none → isClosing c = false → Balanced cs →
      Balanced (c :: cs)
  | pair {c close : Char} {inner rest : List Char} : closing? c = some close → Balanced inner →
      Balanced rest → Balanced (c :: (inner ++ close :: rest))

/-! ## 2. Reading from left to right -/

/-- Reads characters, `pending` being the brackets that are to be closed yet, the innermost first.
A bracket that closes another than the innermost ends the reading. -/
def nest : List Char → List Char → Option (List Char)
  | pending, [] => some pending
  | pending, c :: cs =>
    match closing? c with
    | some close => nest (close :: pending) cs
    | none =>
      if isClosing c then
        match pending with
        | [] => none
        | top :: outer => if c = top then nest outer cs else none
      else nest pending cs

theorem nest_open {c close : Char} (h : closing? c = some close) (pending cs : List Char) :
    nest pending (c :: cs) = nest (close :: pending) cs := by
  simp only [nest, h]

theorem nest_other {c : Char} (h : closing? c = none) (hc : isClosing c = false)
    (pending cs : List Char) : nest pending (c :: cs) = nest pending cs := by
  simp only [nest, h, hc, Bool.false_eq_true, if_false]

/-- A closing bracket is no opening one. -/
theorem closing?_of_isClosing {c : Char} (h : isClosing c = true) : closing? c = none := by
  simp only [isClosing, Bool.or_eq_true, beq_iff_eq] at h
  rcases h with (rfl | rfl) | rfl <;> decide

theorem isClosing_of_closing? {c close : Char} (h : closing? c = some close) :
    isClosing close = true := by
  unfold closing? at h
  split at h
  · obtain rfl := Option.some.inj h; decide
  · split at h
    · obtain rfl := Option.some.inj h; decide
    · split at h
      · obtain rfl := Option.some.inj h; decide
      · cases h

theorem nest_close {c : Char} (h : isClosing c = true) (pending cs : List Char) :
    nest (c :: pending) (c :: cs) = nest pending cs := by
  simp only [nest, closing?_of_isClosing h, h, if_true]

theorem nest_append : ∀ (pending cs cs' : List Char),
    nest pending (cs ++ cs') = (nest pending cs).bind fun pending => nest pending cs'
  | pending, [], cs' => rfl
  | pending, c :: cs, cs' => by
      rw [List.cons_append]
      cases hc : closing? c with
      | some close => rw [nest_open hc, nest_open hc, nest_append]
      | none =>
        cases hclosing : isClosing c with
        | false => rw [nest_other hc hclosing, nest_other hc hclosing, nest_append]
        | true =>
          cases pending with
          | nil => simp only [nest, hc, hclosing, if_true, Option.bind_none]
          | cons top outer =>
            by_cases htop : c = top
            · subst htop
              rw [nest_close hclosing, nest_close hclosing, nest_append]
            · simp only [nest, hc, hclosing, htop, if_true, if_false, Option.bind_none]

/-- Balanced characters leave what is pending as it is. -/
theorem Balanced.nest {cs : List Char} (h : Balanced cs) :
    ∀ pending, Text.nest pending cs = some pending := by
  induction h with
  | nil => exact fun _ => rfl
  | other hc hclosing _ ih =>
    intro pending
    rw [nest_other hc hclosing, ih]
  | pair hc _ _ hinner hrest =>
    intro pending
    rw [nest_open hc, nest_append, hinner, Option.bind_some,
      nest_close (isClosing_of_closing? hc), hrest]

/-- Characters that close what is pending, one after the other, with balanced ones between. -/
def Closes : List Char → List Char → Prop
  | [], cs => Balanced cs
  | top :: outer, cs => ∃ inner rest, cs = inner ++ top :: rest ∧ Balanced inner ∧ Closes outer rest

theorem Closes.other {c : Char} (h : closing? c = none) (hc : isClosing c = false) :
    ∀ {pending cs : List Char}, Closes pending cs → Closes pending (c :: cs)
  | [], _, hcs => Balanced.other h hc hcs
  | _ :: _, _, hcs => by
      obtain ⟨inner, rest, rfl, hinner, hrest⟩ := hcs
      exact ⟨c :: inner, rest, rfl, Balanced.other h hc hinner, hrest⟩

theorem Closes.pair {c close : Char} (h : closing? c = some close) :
    ∀ {pending cs : List Char}, Closes (close :: pending) cs → Closes pending (c :: cs)
  | [], _, hcs => by
      obtain ⟨inner, rest, rfl, hinner, hrest⟩ := hcs
      exact Balanced.pair h hinner hrest
  | top :: outer, _, hcs => by
      obtain ⟨inner, rest, rfl, hinner, between, rest', rfl, hbetween, hrest⟩ := hcs
      exact ⟨c :: (inner ++ close :: between), rest', by simp, Balanced.pair h hinner hbetween,
        hrest⟩

theorem closes_of_nest : ∀ {cs pending : List Char}, nest pending cs = some [] →
    Closes pending cs
  | [], pending, h => by
      obtain rfl := Option.some.inj h
      exact .nil
  | c :: cs, pending, h => by
      cases hc : closing? c with
      | some close =>
        rw [nest_open hc] at h
        exact (closes_of_nest h).pair hc
      | none =>
        cases hclosing : isClosing c with
        | false =>
          rw [nest_other hc hclosing] at h
          exact (closes_of_nest h).other hc hclosing
        | true =>
          cases pending with
          | nil => simp [nest, hc, hclosing] at h
          | cons top outer =>
            by_cases htop : c = top
            · subst htop
              rw [nest_close hclosing] at h
              exact ⟨[], cs, rfl, .nil, closes_of_nest h⟩
            · simp [nest, hc, hclosing, htop] at h

/-- **Brackets are balanced exactly if reading them leaves none to be closed.** -/
theorem balanced_iff {cs : List Char} : Balanced cs ↔ nest [] cs = some [] :=
  ⟨fun h => h.nest [], closes_of_nest⟩

/-! ## 3. Neutral texts -/

/-- What opens and closes nothing, as far as the rest of a text is concerned. -/
abbrev Neutral (s : String) : Prop :=
  ∀ pending, nest pending s.toList = some pending

def brackets : List Char := ['(', ')', '[', ']', '\x7b', '\x7d']

/-- What is checked of every bracket holds of all. -/
theorem forall_brackets {P : Char → Prop} [DecidablePred P]
    (h : brackets.all (fun c => decide (P c)) = true) : ∀ c ∈ brackets, P c :=
  fun c hc => of_decide_eq_true (List.all_eq_true.1 h c hc)

/-- No character is a bracket. -/
def Plain (s : String) : Prop :=
  ∀ c ∈ brackets, c ∉ s.toList

-- over the list: another instance would go through all characters there are
instance (s : String) : Decidable (Plain s) :=
  List.decidableBAll (· ∉ s.toList) brackets

theorem nest_of_not_mem : ∀ {cs : List Char}, (∀ c ∈ brackets, c ∉ cs) →
    ∀ pending, nest pending cs = some pending
  | [], _, _ => rfl
  | c :: cs, h, pending => by
      have hc : c ∉ brackets := fun hm => h c hm List.mem_cons_self
      simp only [brackets, List.mem_cons, List.not_mem_nil, or_false, not_or] at hc
      have hopen : closing? c = none := by simp [closing?, hc]
      have hclosing : isClosing c = false := by simp [isClosing, hc]
      rw [nest_other hopen hclosing]
      exact nest_of_not_mem (fun other ho hm => h other ho (List.mem_cons_of_mem c hm)) pending

theorem neutral_of_plain {s : String} (h : Plain s) : Neutral s :=
  nest_of_not_mem h

theorem Neutral.append {s t : String} (hs : Neutral s) (ht : Neutral t) : Neutral (s ++ t) := by
  intro pending
  rw [String.toList_append, nest_append, hs, Option.bind_some, ht]

theorem neutral_joined {separator : String} (hseparator : Neutral separator) :
    ∀ {members : List String}, (∀ member ∈ members, Neutral member) →
      Neutral (joined separator members)
  | [], _ => fun _ => rfl
  | [member], h => h member List.mem_cons_self
  | member :: _ :: _, h =>
      ((h member List.mem_cons_self).append hseparator).append
        (neutral_joined hseparator fun other ho => h other (List.mem_cons_of_mem member ho))

/-! ## 4. Lines -/

/-- Reads lines one after the other. -/
def nestLines (pending : List Char) (lines : List String) : Option (List Char) :=
  lines.foldlM (fun pending line => nest pending line.toList) pending

/-- **A text of lines is read line by line.** -/
theorem nest_ofLines : ∀ (lines : List String) (pending : List Char),
    nest pending (ofLines lines).toList = nestLines pending lines
  | [], _ => rfl
  | line :: rest, pending => by
      have hfeed : Neutral "\n" := neutral_of_plain (by decide)
      rw [ofLines, String.toList_append, String.toList_append, nest_append, nest_append,
        nestLines, List.foldlM_cons]
      cases nest pending line.toList with
      | none => rfl
      | some pending =>
        rw [Option.bind_some, hfeed, Option.bind_some, nest_ofLines rest]
        rfl

theorem nestLines_cons {pending pending' : List Char} {line : String}
    (h : nest pending line.toList = some pending') (rest : List String) :
    nestLines pending (line :: rest) = nestLines pending' rest := by
  rw [nestLines, List.foldlM_cons, h]
  rfl

theorem nestLines_append {pending pending' : List Char} {lines : List String}
    (h : nestLines pending lines = some pending') (rest : List String) :
    nestLines pending (lines ++ rest) = nestLines pending' rest := by
  rw [nestLines, List.foldlM_append]
  show (nestLines pending lines).bind (fun pending => nestLines pending rest) = _
  rw [h]
  rfl

theorem nestLines_neutral : ∀ {lines : List String}, (∀ line ∈ lines, Neutral line) →
    ∀ pending, nestLines pending lines = some pending
  | [], _, _ => rfl
  | line :: rest, h, pending => by
      rw [nestLines_cons (h line List.mem_cons_self pending)]
      exact nestLines_neutral (fun other ho => h other (List.mem_cons_of_mem line ho)) pending

/-- A list over lines does what its end does, if its items and its separator are neutral. -/
theorem nestLines_withSeparators {separator closing : String} {pending pending' : List Char}
    (hseparator : Neutral separator) (hclosing : nest pending closing.toList = some pending') :
    ∀ {items : List String}, items ≠ [] → (∀ item ∈ items, Neutral item) →
      nestLines pending (withSeparators separator closing items) = some pending'
  | [], hne, _ => absurd rfl hne
  | [item], _, h => by
      have hline : nest pending (item ++ closing).toList = some pending' := by
        rw [String.toList_append, nest_append, h item List.mem_cons_self, Option.bind_some,
          hclosing]
      exact nestLines_cons hline []
  | item :: next :: rest, _, h => by
      have hline := (h item List.mem_cons_self).append hseparator pending
      rw [withSeparators, nestLines_cons hline]
      · exact nestLines_withSeparators hseparator hclosing (List.cons_ne_nil next rest)
          fun other ho => h other (List.mem_cons_of_mem item ho)
      · exact fun he => List.cons_ne_nil next rest he

end MasterSchema.Text
