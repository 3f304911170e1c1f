import Mathlib.Data.List.Induction
import Mathlib.Data.List.Nodup
import Mathlib.Data.List.Pairwise
import MasterSchema.IdDomain

/-!
# Which domains make an id registry, and which of them are found

Domains are checked in one pass that knows the names seen so far. A registry finds the first domain
that fits.

* `fault?` says what is wrong with a domain behind others. Domains are `Sound` if nothing is wrong
  with any of them; `make_eq_ok` and `make_eq_error` say that the pass finds the first fault.
* `find?_perm`: a search that at most one member of a list fits does not depend on the order.
* So the order of domains matters for values exactly if two domains overlap (`order_free_iff`), and
  for names never.
* `searched_of_make` says all this of the registry that is made.
-/

namespace MasterSchema

namespace IdDomain

/-- A value lies in the range of a domain, bounds included. -/
def Covers (domain : IdDomain) (v : Int) : Prop := domain.first ≤ v ∧ v ≤ domain.last

theorem contains_iff {domain : IdDomain} {v : Int} : domain.contains v = true ↔ domain.Covers v := by
  simp [contains, Covers]

/-- Two domains have a value in common. -/
def Overlaps (domain other : IdDomain) : Prop := ∃ v, domain.Covers v ∧ other.Covers v

theorem Overlaps.symm {domain other : IdDomain} (h : domain.Overlaps other) :
    other.Overlaps domain := by
  obtain ⟨v, hdomain, hother⟩ := h
  exact ⟨v, hother, hdomain⟩

/-- Two domains that are not inverted overlap exactly if each begins before the other is over. -/
theorem overlaps_iff {domain other : IdDomain} (h : domain.first ≤ domain.last)
    (h' : other.first ≤ other.last) :
    domain.Overlaps other ↔ domain.first ≤ other.last ∧ other.first ≤ domain.last := by
  constructor
  · intro hsome
    obtain ⟨v, ⟨hfirst, hlast⟩, hfirst', hlast'⟩ := hsome
    omega
  · intro hboth
    refine ⟨max domain.first other.first, ?_, ?_⟩ <;> unfold Covers <;> omega

end IdDomain

namespace IdRegistry

/-! ## 1. The check -/

/-- What is wrong with a domain, `before` being the domains in front of it. -/
def fault? (before : List IdDomain) (domain : IdDomain) : Option IdRegistryError :=
  if domain.last < domain.first then
    some (.invertedRange domain.name domain.first domain.last)
  else if domain.name ∈ before.map (·.name) then some (.duplicateName domain.name)
  else none

/-- Domains of which none is inverted and no two have one name. -/
structure Sound (domains : List IdDomain) : Prop where
  upright : ∀ domain ∈ domains, domain.first ≤ domain.last
  distinct : (domains.map (·.name)).Nodup

/-- The first domain with which something is wrong, and what. -/
def FirstFault (domains : List IdDomain) (e : IdRegistryError) : Prop :=
  ∃ before domain after, domains = before ++ domain :: after ∧ Sound before
    ∧ fault? before domain = some e

section Check

variable {domains before rest : List IdDomain} {domain : IdDomain} {e : IdRegistryError}

theorem fault?_eq_none : fault? before domain = none ↔
    domain.first ≤ domain.last ∧ domain.name ∉ before.map (·.name) := by
  unfold fault?
  split
  · rename_i hinverted
    exact iff_of_false nofun fun h => by omega
  · rename_i hupright
    rw [and_iff_right (by omega)]
    split <;> simp_all

theorem sound_nil : Sound [] := ⟨by simp, by simp⟩

theorem sound_concat :
    Sound (before ++ [domain]) ↔ Sound before ∧ fault? before domain = none := by
  rw [fault?_eq_none]
  refine ⟨fun h => ?_, fun ⟨hbefore, hupright, hname⟩ => ⟨?_, ?_⟩⟩
  · obtain ⟨hupright, hdistinct⟩ := h
    rw [List.forall_mem_append] at hupright
    rw [List.map_append, List.nodup_append] at hdistinct
    refine ⟨⟨hupright.1, hdistinct.1⟩, hupright.2 domain List.mem_cons_self, fun hm => ?_⟩
    exact hdistinct.2.2 _ hm _ List.mem_cons_self rfl
  · rw [List.forall_mem_append]
    exact ⟨hbefore.upright, by simpa using hupright⟩
  · rw [List.map_append, List.nodup_append]
    refine ⟨hbefore.distinct, by simp, fun name hm other ho => ?_⟩
    rw [List.map_singleton, List.mem_singleton] at ho
    exact fun he => hname (ho ▸ he ▸ hm)

theorem sound_or_firstFault (domains : List IdDomain) :
    Sound domains ∨ ∃ e, FirstFault domains e := by
  induction domains using List.reverseRecOn with
  | nil => exact Or.inl sound_nil
  | append_singleton before domain ih =>
    rcases ih with hsound | ⟨e, front, other, after, rfl, hfront, hother⟩
    · cases hfault : fault? before domain with
      | none => exact Or.inl (sound_concat.2 ⟨hsound, hfault⟩)
      | some e => exact Or.inr ⟨e, before, domain, [], rfl, hsound, hfault⟩
    · exact Or.inr ⟨e, front, other, after ++ [domain], by simp, hfront, hother⟩

/-- One step of the pass: the names in front of a domain are those that are seen. -/
theorem check_cons : check (before.map (·.name)).reverse (domain :: rest) =
    match fault? before domain with
    | some e => .error e
    | none => check ((before ++ [domain]).map (·.name)).reverse rest := by
  have hseen : (before.map (·.name)).reverse.contains domain.name
      = decide (domain.name ∈ before.map (·.name)) := by
    rw [Bool.eq_iff_iff]
    simp
  rw [check, fault?, hseen]
  split
  · rfl
  · by_cases hm : domain.name ∈ before.map (·.name)
    · rw [if_pos (decide_eq_true hm), if_pos hm]
    · rw [if_neg (by simpa using hm), if_neg hm, List.map_append, List.reverse_append]
      rfl

/-- The pass gets over sound domains. -/
theorem check_append (h : Sound before) : check [] (before ++ rest)
    = check (before.map (·.name)).reverse rest := by
  induction before using List.reverseRecOn generalizing rest with
  | nil => rfl
  | append_singleton front domain ih =>
    obtain ⟨hfront, hnone⟩ := sound_concat.1 h
    rw [List.append_assoc, ih hfront, List.singleton_append, check_cons, hnone]

theorem make_of_sound (h : Sound domains) : make domains = .ok ⟨domains⟩ := by
  have hcheck : check [] (domains ++ []) = check (domains.map (·.name)).reverse [] :=
    check_append h
  rw [List.append_nil] at hcheck
  rw [make, hcheck, check]

theorem make_of_firstFault (h : FirstFault domains e) : make domains = .error e := by
  obtain ⟨before, domain, after, rfl, hsound, hfault⟩ := h
  rw [make, check_append hsound, check_cons, hfault]

/-- **Domains make a registry exactly if they are sound.** -/
theorem make_eq_ok {ids : IdRegistry} :
    make domains = .ok ids ↔ Sound domains ∧ ids = ⟨domains⟩ := by
  refine ⟨fun h => ?_, fun ⟨hsound, he⟩ => he ▸ make_of_sound hsound⟩
  rcases sound_or_firstFault domains with hsound | ⟨e, hfault⟩
  · exact ⟨hsound, Except.ok.inj (h.symm.trans (make_of_sound hsound))⟩
  · cases h.symm.trans (make_of_firstFault hfault)

/-- **They are refused for the first fault.** -/
theorem make_eq_error : make domains = .error e ↔ FirstFault domains e := by
  refine ⟨fun h => ?_, make_of_firstFault⟩
  rcases sound_or_firstFault domains with hsound | ⟨e', hfault⟩
  · cases h.symm.trans (make_of_sound hsound)
  · rwa [Except.error.inj (h.symm.trans (make_of_firstFault hfault))]

end Check

/-! ## 2. The searches -/

section Only

variable {α : Type} {p : α → Bool} {l l' : List α}

/-- What is found is the member that fits, if no two members do. -/
theorem find?_eq_some_iff_mem (honly : ∀ a ∈ l, ∀ b ∈ l, p a → p b → a = b) {a : α} :
    l.find? p = some a ↔ a ∈ l ∧ p a := by
  refine ⟨fun h => ⟨List.mem_of_find?_eq_some h, List.find?_some h⟩, fun ⟨ha, hp⟩ => ?_⟩
  cases hfind : l.find? p with
  | none => exact absurd hp (List.find?_eq_none.1 hfind a ha)
  | some b =>
    rw [honly b (List.mem_of_find?_eq_some hfind) a ha (List.find?_some hfind) hp]

/-- **A search that no two members fit finds the same in every order.** -/
theorem find?_perm (honly : ∀ a ∈ l, ∀ b ∈ l, p a → p b → a = b) (h : l.Perm l') :
    l'.find? p = l.find? p := by
  have honly' : ∀ a ∈ l', ∀ b ∈ l', p a → p b → a = b := fun a ha b hb =>
    honly a (h.mem_iff.2 ha) b (h.mem_iff.2 hb)
  refine Option.ext fun a => ?_
  rw [find?_eq_some_iff_mem honly, find?_eq_some_iff_mem honly', h.mem_iff]

end Only

/-- No two of the domains overlap. -/
def Apart (domains : List IdDomain) : Prop :=
  domains.Pairwise fun a b => ¬ a.Overlaps b

/-- Two registries find the same domains. -/
structure SameAnswers (ids ids' : IdRegistry) : Prop where
  value : ∀ v, ids'.findByValue v = ids.findByValue v
  name : ∀ name, ids'.findByName name = ids.findByName name

section Search

variable {ids : IdRegistry} {v : Int} {name : String} {domain : IdDomain}

/-- **A value is looked up in the first domain that covers it.** -/
theorem findByValue_eq_some : ids.findByValue v = some domain ↔
    ∃ before after, ids.domains = before ++ domain :: after ∧ domain.Covers v
      ∧ ∀ other ∈ before, ¬ other.Covers v := by
  rw [findByValue, List.find?_eq_some_iff_append, IdDomain.contains_iff]
  simp only [Bool.not_eq_true', ← Bool.not_eq_true, IdDomain.contains_iff]
  exact ⟨fun ⟨hcovers, before, after, h, hbefore⟩ => ⟨before, after, h, hcovers, hbefore⟩,
    fun ⟨before, after, h, hcovers, hbefore⟩ => ⟨hcovers, before, after, h, hbefore⟩⟩

theorem findByValue_eq_none :
    ids.findByValue v = none ↔ ∀ domain ∈ ids.domains, ¬ domain.Covers v := by
  rw [findByValue, List.find?_eq_none]
  simp only [IdDomain.contains_iff]

theorem findByName_eq_none :
    ids.findByName name = none ↔ ∀ domain ∈ ids.domains, domain.name ≠ name := by
  rw [findByName, List.find?_eq_none]
  simp only [beq_iff_eq, ne_eq]

theorem only_by_name (h : Sound ids.domains) : ∀ a ∈ ids.domains, ∀ b ∈ ids.domains,
    (a.name == name) = true → (b.name == name) = true → a = b := by
  intro a ha b hb hna hnb
  exact List.inj_on_of_nodup_map h.distinct ha hb ((eq_of_beq hna).trans (eq_of_beq hnb).symm)

theorem only_by_value (h : Apart ids.domains) : ∀ a ∈ ids.domains, ∀ b ∈ ids.domains,
    a.contains v = true → b.contains v = true → a = b := by
  intro a ha b hb hca hcb
  have hsymm : Std.Symm fun a b : IdDomain => ¬ a.Overlaps b := ⟨fun _ _ hab h => hab h.symm⟩
  by_contra hne
  exact h.forall ha hb hne ⟨v, IdDomain.contains_iff.1 hca, IdDomain.contains_iff.1 hcb⟩

/-- **A domain is found under its name.** -/
theorem findByName_eq_some (h : Sound ids.domains) :
    ids.findByName name = some domain ↔ domain ∈ ids.domains ∧ domain.name = name := by
  rw [findByName, find?_eq_some_iff_mem (only_by_name h), beq_iff_eq]

/-- Sound domains are apart exactly if of any two one is over before the other begins. -/
theorem apart_iff {domains : List IdDomain} (h : Sound domains) :
    Apart domains ↔ domains.Pairwise fun a b => a.last < b.first ∨ b.last < a.first := by
  refine List.Pairwise.iff_of_mem fun {a b} ha hb => ?_
  rw [IdDomain.overlaps_iff (h.upright a ha) (h.upright b hb)]
  omega

theorem Sound.perm {domains domains' : List IdDomain} (h : Sound domains)
    (hperm : domains.Perm domains') : Sound domains' :=
  ⟨fun domain hm => h.upright domain (hperm.mem_iff.2 hm),
    (hperm.map _).nodup_iff.1 h.distinct⟩

/-- A domain that covers a value is found if it is brought to the front. -/
theorem findByValue_front {rest : List IdDomain} (h : domain.Covers v) :
    (⟨domain :: rest⟩ : IdRegistry).findByValue v = some domain :=
  List.find?_cons_of_pos (IdDomain.contains_iff.2 h)

/-- **The order of the domains does not matter exactly if no two overlap.** Of two that do, each is
found for a common value where it stands first. -/
theorem order_free_iff (h : Sound ids.domains) : Apart ids.domains ↔
    ∀ domains, ids.domains.Perm domains →
      ∃ ids', make domains = .ok ids' ∧ SameAnswers ids ids' := by
  constructor
  · intro hapart domains hperm
    exact ⟨⟨domains⟩, make_of_sound (h.perm hperm),
      fun v => find?_perm (only_by_value hapart) hperm,
      fun name => find?_perm (only_by_name h) hperm⟩
  · intro hsame
    have hnodup : ids.domains.Nodup := List.Nodup.of_map _ h.distinct
    have hfront : ∀ a ∈ ids.domains, ∀ v, a.Covers v → ids.findByValue v = some a := by
      intro a ha v hcovers
      obtain ⟨ids', hmake, hanswers⟩ := hsame _ (List.perm_cons_erase ha)
      obtain ⟨_, rfl⟩ := make_eq_ok.1 hmake
      exact (hanswers.value v).symm.trans (findByValue_front hcovers)
    refine hnodup.pairwise_of_forall_ne fun a ha b hb hne hoverlap => hne ?_
    obtain ⟨v, hva, hvb⟩ := hoverlap
    exact Option.some.inj ((hfront a ha v hva).symm.trans (hfront b hb v hvb))

end Search

/-! ## 3. Registries that are made -/

/-- What a registry finds. -/
structure Searched (ids : IdRegistry) : Prop where
  value_some : ∀ v domain, ids.findByValue v = some domain ↔
    ∃ before after, ids.domains = before ++ domain :: after ∧ domain.Covers v
      ∧ ∀ other ∈ before, ¬ other.Covers v
  value_none : ∀ v, ids.findByValue v = none ↔ ∀ domain ∈ ids.domains, ¬ domain.Covers v
  name_some : ∀ domain ∈ ids.domains, ids.findByName domain.name = some domain
  name_none : ∀ name, (∀ domain ∈ ids.domains, domain.name ≠ name) → ids.findByName name = none
  order_free : Apart ids.domains ↔ ∀ domains, ids.domains.Perm domains →
    ∃ ids', make domains = .ok ids' ∧ SameAnswers ids ids'

/-- **Domains make a registry exactly if none is inverted and no two have one name; otherwise the
error is that of the first at fault, an inverted range counting before a repeated name. The registry
finds a value in the first domain that covers it and a domain under its own name only, and both in
every order of the domains exactly if no two overlap.** -/
theorem searched_of_make (domains : List IdDomain) :
    (∀ ids, make domains = .ok ids ↔ Sound domains ∧ ids = ⟨domains⟩)
      ∧ (∀ e, make domains = .error e ↔ FirstFault domains e)
      ∧ ∀ ids, make domains = .ok ids → ids.Searched := by
  refine ⟨fun _ => make_eq_ok, fun _ => make_eq_error, fun ids h => ?_⟩
  obtain ⟨hsound, rfl⟩ := make_eq_ok.1 h
  exact ⟨fun _ _ => findByValue_eq_some, fun _ => findByValue_eq_none,
    fun domain hm => (findByName_eq_some hsound).2 ⟨hm, rfl⟩, fun _ => findByName_eq_none.2,
    order_free_iff hsound⟩

/-- Domains that lie one behind the other, with a gap before the last. -/
def stages : List IdDomain :=
  [⟨"Kanji", 0, 9999⟩, ⟨"Radical", 10000, 10299⟩, ⟨"Stage", 20000, 20999⟩]

theorem searched_stages : make stages = .ok ⟨stages⟩ ∧ (⟨stages⟩ : IdRegistry).Searched
    ∧ Apart stages ∧ ∃ ids', make stages.reverse = .ok ids' ∧ SameAnswers ⟨stages⟩ ids' := by
  have hmake : make stages = .ok ⟨stages⟩ := by decide
  have hsearched := (searched_of_make stages).2.2 _ hmake
  have hapart : Apart stages := (apart_iff (make_eq_ok.1 hmake).1).2 (by decide)
  exact ⟨hmake, hsearched, hapart,
    hsearched.order_free.1 hapart _ (List.reverse_perm stages).symm⟩

example : (⟨[⟨"A", 0, 100⟩, ⟨"B", 50, 150⟩]⟩ : IdRegistry).findByValue 75 = some ⟨"A", 0, 100⟩
    ∧ (⟨[⟨"B", 50, 150⟩, ⟨"A", 0, 100⟩]⟩ : IdRegistry).findByValue 75 = some ⟨"B", 50, 150⟩ := by
  decide

end IdRegistry

end MasterSchema
