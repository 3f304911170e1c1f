import Mathlib.Data.Option.Basic
import MasterSchema.Format.Reader

/-!
# What readers give

`Gives` says of a reader that whatever it takes, what it gives has a property. There is one lemma
for each way in which readers are put together, and so a grammar is followed rule by rule.
-/

namespace MasterSchema.Reader

/-- All that a reader gives has a property. -/
def Gives {α : Type} (p : α → Prop) (reader : Reader α) : Prop :=
  ∀ cs a rest, reader cs = some (a, rest) → p a

variable {α β : Type} {p : α → Prop} {q : β → Prop}

theorem gives_pure {a : α} (h : p a) : Gives p (pure a) := by
  intro cs b rest hread
  obtain ⟨rfl, _⟩ := Prod.mk.inj (Option.some.inj hread)
  exact h

theorem gives_failure : Gives p failure := fun _ _ _ hread => nomatch hread

/-- Whatever a reader is, what it gives is something. -/
theorem gives_true (reader : Reader α) : Gives (fun _ => True) reader := fun _ _ _ _ => trivial

theorem gives_lift {a : Option α} (h : ∀ b, a = some b → p b) :
    Gives p (StateT.lift a : Reader α) := by
  intro cs b rest hread
  cases a with
  | none => cases hread
  | some a =>
    obtain ⟨rfl, _⟩ := Prod.mk.inj (Option.some.inj hread)
    exact h a rfl

theorem Gives.bind {reader : Reader α} {next : α → Reader β} (h : Gives p reader)
    (hnext : ∀ a, p a → Gives q (next a)) : Gives q (reader >>= next) := by
  intro cs b rest hread
  obtain ⟨⟨a, left⟩, hfirst, hthen⟩ := Option.bind_eq_some_iff.1 hread
  exact hnext a (h cs a left hfirst) left b rest hthen

/-- What stands in front does not matter. -/
theorem Gives.after {reader : Reader α} {next : α → Reader β} (h : ∀ a, Gives q (next a)) :
    Gives q (reader >>= next) :=
  (gives_true reader).bind fun a _ => h a

theorem Gives.orElse {reader other : Reader α} (h : Gives p reader) (hother : Gives p other) :
    Gives p (reader <|> other) := by
  intro cs a rest hread
  have heither : (reader cs <|> other cs) = some (a, rest) := hread
  rcases (Option.orElse_eq_some _ _ _).1 heither with hread | ⟨_, hread⟩
  · exact h cs a rest hread
  · exact hother cs a rest hread

theorem gives_ite {reader other : Reader α} {c : Prop} [Decidable c] (h : Gives p reader)
    (hother : Gives p other) : Gives p (if c then reader else other) := by
  split
  · exact h
  · exact hother

theorem Gives.upTo {item : Reader α} (h : Gives p item) :
    ∀ bound, Gives (fun items => ∀ a ∈ items, p a) (upTo item bound)
  | [], cs, items, rest, hread => by
      obtain ⟨rfl, _⟩ := Prod.mk.inj (Option.some.inj hread)
      simp
  | _ :: bound, cs, items, rest, hread => by
      unfold Reader.upTo at hread
      split at hread
      · obtain ⟨rfl, _⟩ := Prod.mk.inj (Option.some.inj hread)
        simp
      · rename_i first left hfirst
        split at hread
        · cases hread
        · rename_i more left' hmore
          obtain ⟨rfl, _⟩ := Prod.mk.inj (Option.some.inj hread)
          rw [List.forall_mem_cons]
          exact ⟨h cs first left hfirst, h.upTo bound left more left' hmore⟩

theorem Gives.many {item : Reader α} (h : Gives p item) :
    Gives (fun items => ∀ a ∈ items, p a) (many item) :=
  fun cs => h.upTo cs cs

theorem Gives.separated {item : Reader α} (h : Gives p item) (separator : Reader Unit) :
    Gives (fun items => ∀ a ∈ items, p a) (separated item separator) := by
  refine Gives.orElse ?_ (gives_pure (by simp))
  refine h.bind fun first hfirst => (Gives.many (Gives.after fun _ => h)).bind fun more hmore => ?_
  exact gives_pure (List.forall_mem_cons.2 ⟨hfirst, hmore⟩)

/-- What is made of a whole text. -/
theorem Gives.whole {reader : Reader α} (h : Gives p reader) {text : String} {a : α}
    (hread : whole reader text = some a) : p a := by
  unfold Reader.whole complete at hread
  split at hread
  · rename_i hfirst
    obtain rfl := Option.some.inj hread
    exact h _ _ _ hfirst
  · cases hread

end MasterSchema.Reader
