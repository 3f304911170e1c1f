import Mathlib.Data.List.Induction
import Mathlib.Data.List.Nodup
import MasterSchema.Format.Basic
import MasterSchema.Proofs.Format.Readers

/-!
# No reader gives a key twice

A table is a list of entries, and nothing in that keeps a key from standing in it twice. The readers
do: no table that is read has a key twice, neither the table of the file nor any in it.

* `Value.Distinct` says so of a value, `Table.Distinct` of a table.
* In a TOML document every step keeps it (`Keeps`): a step puts another node under a key that is
  there, or adds a key that is not.
* In the other formats it is what makes entries a table (`distinct_nestedTable`); at the top of a
  file the last entry of a key wins (`distinct_lastWins`).
* `distinct_readTable` says so of every file that is read.
-/

namespace MasterSchema

/-! ## 1. Entries and values -/

/-- Entries have each key once, and all their values have a property. -/
structure Keyed {α : Type} (p : α → Prop) (entries : List (String × α)) : Prop where
  keys : (entries.map (·.1)).Nodup
  each : ∀ entry ∈ entries, p entry.2

namespace Keyed

variable {α : Type} {p : α → Prop} {entries : List (String × α)} {key : String} {a : α}

theorem nil : Keyed p [] := ⟨List.nodup_nil, by simp⟩

/-- A key that is not there may be added. -/
theorem concat (h : Keyed p entries) (hkey : key ∉ entries.map (·.1)) (ha : p a) :
    Keyed p (entries ++ [(key, a)]) := by
  refine ⟨?_, ?_⟩
  · rw [List.map_append, List.map_singleton, ← List.concat_eq_append, List.nodup_concat]
    exact ⟨hkey, h.keys⟩
  · rw [List.forall_mem_append, List.forall_mem_singleton]
    exact ⟨h.each, ha⟩

/-- Another value may stand under a key that is there. -/
theorem replace (h : Keyed p entries) (ha : p a) :
    Keyed p (entries.map fun entry => if entry.1 == key then (key, a) else entry) := by
  have hsame : (entries.map fun entry => if entry.1 == key then (key, a) else entry).map (·.1)
      = entries.map (·.1) := by
    rw [List.map_map]
    refine List.map_congr_left fun entry _ => ?_
    show (if entry.1 == key then (key, a) else entry).1 = entry.1
    split
    · rename_i hkey
      exact (eq_of_beq hkey).symm
    · rfl
  refine ⟨hsame ▸ h.keys, ?_⟩
  rw [List.forall_mem_map]
  intro entry hm
  split
  · exact ha
  · exact h.each entry hm

end Keyed

/-- A value that holds no others. -/
def Value.IsSingle : Value → Prop
  | .array _ | .table _ => False
  | _ => True

/-- No table in a value has a key twice. -/
inductive Value.Distinct : Value → Prop where
  | single {v : Value} (h : v.IsSingle) : v.Distinct
  | array {items : List Value} (h : ∀ v ∈ items, v.Distinct) : (Value.array items).Distinct
  | table {entries : Table} (hkeys : entries.keys.Nodup)
      (h : ∀ entry ∈ entries, entry.2.Distinct) : (Value.table entries).Distinct

/-- A table has no key twice, and no table in it has. -/
def Table.Distinct (t : Table) : Prop := Keyed Value.Distinct t

theorem Value.distinct_table {entries : Table} :
    (Value.table entries).Distinct ↔ entries.Distinct := by
  constructor
  · intro h
    cases h with
    | single h => exact h.elim
    | table hkeys h => exact ⟨hkeys, h⟩
  · intro h
    exact .table h.keys h.each

theorem Value.distinct_array {items : List Value} :
    (Value.array items).Distinct ↔ ∀ v ∈ items, v.Distinct := by
  constructor
  · intro h
    cases h with
    | single h => exact h.elim
    | array h => exact h
  · intro h
    exact .array h

theorem Table.Distinct.get? {t entries : Table} {key : String} (h : t.Distinct)
    (hget : t.get? key = some (.table entries)) : entries.Distinct := by
  obtain ⟨entry, hfind, hvalue⟩ := Option.map_eq_some_iff.1 hget
  have hentry := h.each entry (List.mem_of_find?_eq_some hfind)
  rwa [hvalue, Value.distinct_table] at hentry

/-! ## 2. TOML documents -/

namespace Toml

theorem entryValues_eq : ∀ nodes : Nodes,
    entryValues nodes = nodes.map fun entry => (entry.1, entry.2.value)
  | [] => rfl
  | (key, node) :: rest => by rw [entryValues, entryValues_eq rest]; rfl

theorem itemValues_eq : ∀ items : List Node, itemValues items = items.map Node.value
  | [] => rfl
  | node :: rest => by rw [itemValues, itemValues_eq rest]; rfl

/-- The table that nodes make has no key twice, and none in it has. -/
def Nodes.Distinct (nodes : Nodes) : Prop := Keyed (fun node => node.value.Distinct) nodes

/-- A change that keeps the keys of tables distinct. -/
def Keeps (f : Nodes → Option Nodes) : Prop :=
  ∀ nodes changed, nodes.Distinct → f nodes = some changed → changed.Distinct

section Nodes

variable {nodes entries : Nodes} {key : String} {node : Node} {origin : Origin}
  {items : List Node} {f : Nodes → Option Nodes}

theorem distinct_entryValues : (entryValues nodes).Distinct ↔ nodes.Distinct := by
  have hkeys : (entryValues nodes).map (·.1) = nodes.map (·.1) := by
    rw [entryValues_eq, List.map_map]
    rfl
  have heach : (∀ entry ∈ entryValues nodes, entry.2.Distinct)
      ↔ ∀ entry ∈ nodes, entry.2.value.Distinct := by
    rw [entryValues_eq, List.forall_mem_map]
  exact ⟨fun h => ⟨hkeys ▸ h.keys, heach.1 h.each⟩, fun h => ⟨hkeys ▸ h.keys, heach.2 h.each⟩⟩

theorem distinct_tableNode : (Node.table origin entries).value.Distinct ↔ entries.Distinct := by
  rw [Node.value, Value.distinct_table, distinct_entryValues]

theorem distinct_tablesNode :
    (Node.tables items).value.Distinct ↔ ∀ item ∈ items, item.value.Distinct := by
  rw [Node.value, Value.distinct_array, itemValues_eq, List.forall_mem_map]

theorem Nodes.mem_of_get? (h : nodes.get? key = some node) : (key, node) ∈ nodes := by
  obtain ⟨entry, hfind, rfl⟩ := Option.map_eq_some_iff.1 h
  obtain rfl : entry.1 = key := by simpa using List.find?_some hfind
  exact List.mem_of_find?_eq_some hfind

theorem Nodes.not_mem_of_get? (h : nodes.get? key = none) : key ∉ nodes.map (·.1) := by
  rw [Nodes.get?, Option.map_eq_none_iff, List.find?_eq_none] at h
  intro hm
  obtain ⟨entry, hm, hkey⟩ := List.mem_map.1 hm
  exact h entry hm (beq_iff_eq.2 hkey)

theorem Nodes.Distinct.get? (h : nodes.Distinct) (hget : nodes.get? key = some node) :
    node.value.Distinct :=
  h.each _ (Nodes.mem_of_get? hget)

/-- The node of a key may come to stand behind all others. -/
theorem Nodes.Distinct.moveLast (h : nodes.Distinct) (hnode : node.value.Distinct) :
    (nodes.moveLast key node).Distinct := by
  refine Keyed.concat ⟨?_, ?_⟩ ?_ hnode
  · exact h.keys.sublist (List.filter_sublist.map _)
  · exact fun entry hm => h.each entry (List.mem_of_mem_filter hm)
  · intro hm
    obtain ⟨entry, hm, hkey⟩ := List.mem_map.1 hm
    have hne := (List.mem_filter.1 hm).2
    exact bne_iff_ne.1 hne hkey

theorem distinct_changeLast (hf : Keeps f) (hitems : ∀ item ∈ items, item.value.Distinct)
    (h : changeLast f items = some node) : node.value.Distinct := by
  unfold changeLast at h
  split at h
  · rename_i origin entries hlast
    obtain ⟨changed, hchange, he⟩ := Option.bind_eq_some_iff.1 h
    obtain rfl := Option.some.inj he
    have hentries := hitems _ (List.mem_of_getLast? hlast)
    rw [distinct_tablesNode, List.forall_mem_append, List.forall_mem_singleton]
    refine ⟨fun item hm => hitems item (List.dropLast_subset items hm), ?_⟩
    exact distinct_tableNode.2 (hf entries changed (distinct_tableNode.1 hentries) hchange)
  · cases h

/-! A key of a path leads into a table that is made for it, into one that is there, or into the last
table of an array. -/

theorem Nodes.Distinct.grow (h : nodes.Distinct) (hf : Keeps f) (hget : nodes.get? key = none)
    (hchange : f [] = some entries) : Nodes.Distinct (nodes ++ [(key, .table origin entries)]) :=
  h.concat (Nodes.not_mem_of_get? hget) (distinct_tableNode.2 (hf [] entries .nil hchange))

theorem Nodes.Distinct.enter {changed : Nodes} (h : nodes.Distinct) (hf : Keeps f)
    (hget : nodes.get? key = some (.table origin entries)) (hchange : f entries = some changed) :
    (nodes.replace key (.table origin changed)).Distinct :=
  h.replace (distinct_tableNode.2 (hf entries changed (distinct_tableNode.1 (h.get? hget)) hchange))

theorem Nodes.Distinct.enterLast (h : nodes.Distinct) (hf : Keeps f)
    (hget : nodes.get? key = some (.tables items)) (hchange : changeLast f items = some node) :
    (nodes.replace key node).Distinct :=
  h.replace (distinct_changeLast hf (distinct_tablesNode.1 (h.get? hget)) hchange)

theorem keeps_insertDotted {v : Value} (hv : v.Distinct) (last : String) :
    ∀ path, Keeps (insertDotted path last v)
  | [], nodes, changed, hnodes, h => by
      rw [insertDotted] at h
      split at h
      · rename_i hget
        obtain rfl := Option.some.inj h
        exact hnodes.concat (Nodes.not_mem_of_get? hget) hv
      · cases h
  | key :: rest, nodes, changed, hnodes, h => by
      have ih := keeps_insertDotted hv last rest
      rw [insertDotted] at h
      split at h
      · rename_i hget
        obtain ⟨inner, hinner, he⟩ := Option.bind_eq_some_iff.1 h
        obtain rfl := Option.some.inj he
        exact hnodes.grow ih hget hinner
      · cases h
      · rename_i hget
        split at h
        · cases h
        · obtain ⟨inner, hinner, he⟩ := Option.bind_eq_some_iff.1 h
          obtain rfl := Option.some.inj he
          exact hnodes.enter ih hget hinner
      · rename_i hget
        split at h
        · cases h
        · obtain ⟨node, hnode, he⟩ := Option.bind_eq_some_iff.1 h
          obtain rfl := Option.some.inj he
          exact hnodes.enterLast ih hget hnode
      · cases h

theorem keeps_changeAt (hf : Keeps f) : ∀ path, Keeps (changeAt path f)
  | [] => hf
  | key :: rest => by
      intro nodes changed hnodes h
      have ih := keeps_changeAt hf rest
      rw [changeAt] at h
      split at h
      · rename_i hget
        obtain ⟨inner, hinner, he⟩ := Option.bind_eq_some_iff.1 h
        obtain rfl := Option.some.inj he
        exact hnodes.grow ih hget hinner
      · rename_i hget
        obtain ⟨inner, hinner, he⟩ := Option.bind_eq_some_iff.1 h
        obtain rfl := Option.some.inj he
        exact hnodes.enter ih hget hinner
      · rename_i hget
        obtain ⟨node, hnode, he⟩ := Option.bind_eq_some_iff.1 h
        obtain rfl := Option.some.inj he
        exact hnodes.enterLast ih hget hnode
      · cases h

/-- A table that a header opens has no entries yet. -/
theorem distinct_opened : (Node.table .header []).value.Distinct := distinct_tableNode.2 .nil

theorem keeps_openTable (path : List String) (last : String) : Keeps (openTable path last) := by
  refine keeps_changeAt (fun nodes changed hnodes h => ?_) path
  split at h
  · rename_i hget
    obtain rfl := Option.some.inj h
    exact hnodes.concat (Nodes.not_mem_of_get? hget) distinct_opened
  · rename_i entries hget
    obtain rfl := Option.some.inj h
    exact hnodes.moveLast (distinct_tableNode.2 (distinct_tableNode.1 (hnodes.get? hget)))
  · cases h

theorem keeps_openItem (path : List String) (last : String) : Keeps (openItem path last) := by
  refine keeps_changeAt (fun nodes changed hnodes h => ?_) path
  split at h
  · rename_i hget
    obtain rfl := Option.some.inj h
    refine hnodes.concat (Nodes.not_mem_of_get? hget) (distinct_tablesNode.2 ?_)
    rw [List.forall_mem_singleton]
    exact distinct_opened
  · rename_i items hget
    obtain rfl := Option.some.inj h
    refine hnodes.replace (distinct_tablesNode.2 ?_)
    rw [List.forall_mem_append, List.forall_mem_singleton]
    exact ⟨distinct_tablesNode.1 (hnodes.get? hget), distinct_opened⟩
  · cases h

end Nodes

/-- What every step keeps holds in the end. -/
theorem foldlM_keeps {σ α : Type} {p : σ → Prop} {f : σ → α → Option σ} : ∀ l : List α,
    (∀ a ∈ l, ∀ s s', p s → f s a = some s' → p s') →
      ∀ s s', p s → l.foldlM f s = some s' → p s'
  | [], _, s, s', hs, h => Option.some.inj h ▸ hs
  | a :: rest, hstep, s, s', hs, h => by
      rw [List.forall_mem_cons] at hstep
      obtain ⟨next, hfirst, hrest⟩ := Option.bind_eq_some_iff.1 h
      exact foldlM_keeps rest hstep.2 next s' (hstep.1 s next hs hfirst) hrest

section Grammar

open Reader

/-- What is made into a value that holds no others. -/
theorem gives_single {α : Type} {reader : Reader α} {made : α → Value}
    (h : ∀ a, (made a).IsSingle) : Gives Value.Distinct (do let a ← reader; pure (made a)) :=
  .after fun a => gives_pure (.single (h a))

theorem gives_bounded (n : Int) : Gives Value.Distinct (bounded n) :=
  gives_ite (gives_pure (.single trivial)) gives_failure

theorem gives_integer : Gives Value.Distinct integer := by
  have hmarked : ∀ base mark, Gives Value.Distinct (integerOf base mark) := fun base mark =>
    .after fun _ => .after fun _ => gives_bounded _
  have hdecimal : Gives Value.Distinct decimalInteger :=
    .after fun _ => .after fun _ => gives_bounded _
  exact (hmarked 16 "0x").orElse ((hmarked 8 "0o").orElse ((hmarked 2 "0b").orElse hdecimal))

theorem gives_float : Gives Value.Distinct float := by
  have hspecial : Gives Value.Distinct specialFloat := .after fun _ =>
    .orElse (gives_single fun _ => trivial) (gives_single fun _ => trivial)
  have hdecimal : Gives Value.Distinct decimalFloat := by
    have hbounded : ∀ (c : Prop) [Decidable c] (bits : UInt64),
        Gives Value.Distinct (if c then failure else pure (.float bits)) := fun c _ bits =>
      gives_ite gives_failure (gives_pure (.single trivial))
    refine .after fun _ => .after fun _ => .after fun _ => .after fun _ => ?_
    exact gives_ite (.after fun _ => hbounded _ _) (hbounded _ _)
  exact hdecimal.orElse hspecial

/-- A value that holds no others has no tables in it. -/
theorem gives_scalar : Gives Value.Distinct scalar := by
  have htext : Gives Value.Distinct (do let s ← string; pure (.text s)) :=
    gives_single fun _ => trivial
  have hboolean : Gives Value.Distinct boolean :=
    .orElse (gives_single fun _ => trivial) (gives_single fun _ => trivial)
  have hdate : Gives Value.Distinct (do let d ← dateTime; pure (.date d)) :=
    gives_single fun _ => trivial
  exact htext.orElse (hboolean.orElse (hdate.orElse (gives_float.orElse gives_integer)))

theorem gives_pair {value : Reader Value} (h : Gives Value.Distinct value) :
    Gives (fun entry => entry.2.Distinct) (pair value) :=
  .after fun _ => .after fun _ => .after fun _ => h.bind fun _ hv => .after fun _ => gives_pure hv

theorem gives_array {item : Reader Value} (h : Gives Value.Distinct item) :
    Gives Value.Distinct (array item) := by
  have hspaced : Gives Value.Distinct (do gap; let v ← item; gap; pure v) :=
    .after fun _ => h.bind fun _ hv => .after fun _ => gives_pure hv
  refine .after fun _ => (hspaced.separated _).bind fun items hitems => ?_
  have hend : Gives Value.Distinct (do gap; char ']'; pure (.array items)) :=
    .after fun _ => .after fun _ => gives_pure (.array hitems)
  exact gives_ite (.after fun _ => hend) hend

theorem distinct_ofPairs {pairs : List ((List String × String) × Value)} {nodes : Nodes}
    (hpairs : ∀ entry ∈ pairs, entry.2.Distinct) (h : ofPairs pairs = some nodes) :
    nodes.Distinct :=
  foldlM_keeps pairs (fun entry hm s s' => keeps_insertDotted (hpairs entry hm) entry.1.2 entry.1.1
    s s') [] nodes .nil h

theorem gives_inlineTable {value : Reader Value} (h : Gives Value.Distinct value) :
    Gives Value.Distinct (inlineTable value) := by
  refine .after fun _ => ((gives_pair h).separated _).bind fun pairs hpairs => ?_
  have hnodes : Gives Nodes.Distinct (StateT.lift (ofPairs pairs)) :=
    gives_lift fun nodes hnodes => distinct_ofPairs hpairs hnodes
  exact .after fun _ => .after fun _ => hnodes.bind fun nodes hnodes =>
    gives_pure (Value.distinct_table.2 (distinct_entryValues.2 hnodes))

theorem gives_value : ∀ depth, Gives Value.Distinct (value depth)
  | 0 => gives_scalar
  | depth + 1 => (gives_array (gives_value depth)).orElse
      ((gives_inlineTable (gives_value depth)).orElse gives_scalar)

/-- A line brings no value with a key twice. -/
def Line.Distinct : Line → Prop
  | .pair _ _ v => v.Distinct
  | _ => True

theorem gives_line : Gives Line.Distinct line := by
  refine .after fun _ => .orElse (.after fun _ => .after fun _ => gives_pure trivial) ?_
  refine .orElse (.after fun _ => gives_pure trivial) (.orElse ?_ (.orElse ?_ ?_))
  · exact .after fun _ => .after fun _ => .after fun _ => .after fun _ => gives_pure trivial
  · exact .after fun _ => .after fun _ => .after fun _ => .after fun _ => gives_pure trivial
  · exact (gives_pair (gives_value _)).bind fun _ hv => .after fun _ => gives_pure hv

end Grammar

/-- One more line keeps the keys of what is read so far distinct. -/
theorem Draft.distinct_add {draft next : Draft} {line : Line} (hline : line.Distinct)
    (h : draft.nodes.Distinct) (hadd : draft.add line = some next) : next.nodes.Distinct := by
  cases line with
  | empty => exact Option.some.inj hadd ▸ h
  | table path last =>
    obtain ⟨nodes, hnodes, he⟩ := Option.bind_eq_some_iff.1 hadd
    exact Option.some.inj he ▸ keeps_openTable path last _ nodes h hnodes
  | item path last =>
    obtain ⟨nodes, hnodes, he⟩ := Option.bind_eq_some_iff.1 hadd
    exact Option.some.inj he ▸ keeps_openItem path last _ nodes h hnodes
  | pair path last v =>
    obtain ⟨nodes, hnodes, he⟩ := Option.bind_eq_some_iff.1 hadd
    exact Option.some.inj he ▸
      keeps_changeAt (keeps_insertDotted hline last path) draft.header _ nodes h hnodes

/-- **No table of a TOML document has a key twice.** -/
theorem distinct_read {text : String} {table : Table} (h : read text = some table) :
    table.Distinct := by
  obtain ⟨all, hlines, h⟩ := Option.bind_eq_some_iff.1 h
  obtain ⟨draft, hdraft, he⟩ := Option.bind_eq_some_iff.1 h
  have hgives : Reader.Gives (fun all => ∀ line ∈ all, line.Distinct) lines :=
    .after fun _ => gives_line.many.bind fun _ hall => .after fun _ => Reader.gives_pure hall
  have hnodes : draft.nodes.Distinct := foldlM_keeps (p := fun draft => draft.nodes.Distinct) all
    (fun line hm _ _ => Draft.distinct_add (hgives.whole hlines line hm)) {} draft .nil hdraft
  exact Option.some.inj he ▸ distinct_entryValues.2 hnodes

end Toml

namespace Format

theorem distinct_dateOfText {text : String} {v : Value} (h : dateOfText text = some v) :
    v.Distinct := by
  obtain ⟨_, _, rfl⟩ := Option.map_eq_some_iff.1 h
  exact .single trivial

/-! ## 3. The other formats -/

/-- **Entries of one key make no table.** -/
theorem distinct_nestedTable {entries : Table} {v : Value}
    (heach : ∀ entry ∈ entries, entry.2.Distinct) (h : nestedTable entries = some v) :
    v.Distinct := by
  unfold nestedTable at h
  split at h
  · obtain rfl := Option.some.inj h
    exact Value.distinct_table.2 .nil
  · split at h
    · split at h
      · exact distinct_dateOfText h
      · cases h
    · split at h
      · rename_i hnodup
        obtain rfl := Option.some.inj h
        exact .table (of_decide_eq_true hnodup) heach
      · cases h

/-- **At the top of a file the last entry of a key takes the place of the first.** -/
theorem distinct_lastWins {entries : Table} (heach : ∀ entry ∈ entries, entry.2.Distinct) :
    (lastWins entries).Distinct := by
  unfold lastWins
  induction entries using List.reverseRecOn with
  | nil => exact Keyed.nil
  | append_singleton front entry ih =>
    rw [List.forall_mem_append, List.forall_mem_singleton] at heach
    have htable := ih heach.1
    rw [List.foldl_concat]
    split
    · exact htable.replace heach.2
    · rename_i hnew
      rw [Table.contains_eq, decide_eq_true_eq] at hnew
      exact htable.concat hnew heach.2

end Format

namespace Json

theorem distinct_number {n : Number} {v : Value} (h : n.value? = some v) : v.Distinct := by
  have hfloat : n.float? = some v → v.Distinct := by
    intro h
    obtain ⟨_, _, rfl⟩ := Option.map_eq_some_iff.1 h
    exact .single trivial
  unfold Number.value? at h
  dsimp only at h
  split at h
  · split at h
    · split at h
      · exact hfloat h
      · exact Option.some.inj h ▸ .single trivial
    · split at h
      · exact Option.some.inj h ▸ .single trivial
      · cases h
  · exact hfloat h

mutual

theorem distinct_value? (levels : Nat) : ∀ (json : Json) (v : Value),
    json.value? levels = some v → v.Distinct
  | .null, _, h => nomatch h
  | .boolean _, _, h => Option.some.inj h ▸ .single trivial
  | .number _, _, h => distinct_number h
  | .text _, _, h => by
      obtain ⟨_, _, rfl⟩ := Option.map_eq_some_iff.1 h
      exact .single trivial
  | .array items, _, h => by
      unfold value? at h
      split at h
      · cases h
      · obtain ⟨values, hvalues, rfl⟩ := Option.map_eq_some_iff.1 h
        exact .array (distinct_itemValues? _ items values hvalues)
  | .object members, _, h => by
      unfold value? at h
      split at h
      · cases h
      · obtain ⟨entries, hentries, h⟩ := Option.bind_eq_some_iff.1 h
        exact Format.distinct_nestedTable (distinct_memberValues? _ members entries hentries) h

theorem distinct_itemValues? (levels : Nat) : ∀ (items : List Json) (values : List Value),
    itemValues? levels items = some values → ∀ v ∈ values, v.Distinct
  | [], _, h => by
      obtain rfl := Option.some.inj h
      simp
  | item :: rest, _, h => by
      unfold itemValues? at h
      obtain ⟨v, hv, h⟩ := Option.bind_eq_some_iff.1 h
      obtain ⟨more, hmore, he⟩ := Option.bind_eq_some_iff.1 h
      obtain rfl := Option.some.inj he
      rw [List.forall_mem_cons]
      exact ⟨distinct_value? levels item v hv, distinct_itemValues? levels rest more hmore⟩

theorem distinct_memberValues? (levels : Nat) : ∀ (members : List (Option String × Json))
    (entries : Table), memberValues? levels members = some entries →
      ∀ entry ∈ entries, entry.2.Distinct
  | [], _, h => by
      obtain rfl := Option.some.inj h
      simp
  | (_, item) :: rest, _, h => by
      unfold memberValues? at h
      obtain ⟨k, _, h⟩ := Option.bind_eq_some_iff.1 h
      obtain ⟨v, hv, h⟩ := Option.bind_eq_some_iff.1 h
      obtain ⟨more, hmore, he⟩ := Option.bind_eq_some_iff.1 h
      obtain rfl := Option.some.inj he
      rw [List.forall_mem_cons]
      exact ⟨distinct_value? levels item v hv, distinct_memberValues? levels rest more hmore⟩

end

theorem distinct_table? {json : Json} {table : Table} (h : json.table? = some table) :
    table.Distinct := by
  unfold table? at h
  split at h
  · obtain ⟨entries, hentries, rfl⟩ := Option.map_eq_some_iff.1 h
    exact Format.distinct_lastWins (distinct_memberValues? _ _ entries hentries)
  · cases h

end Json

namespace Ron

mutual

theorem distinct_value? : ∀ (ron : Ron) (v : Value), ron.value? = some v → v.Distinct
  | .unit, _, h => nomatch h
  | .present inner, v, h => distinct_value? inner v h
  | .boolean _, _, h => Option.some.inj h ▸ .single trivial
  | .number (.integer _), _, h => by
      unfold value? at h
      split at h
      · exact Option.some.inj h ▸ .single trivial
      · cases h
  | .number (.float _), _, h => Option.some.inj h ▸ .single trivial
  | .text _, _, h => Option.some.inj h ▸ .single trivial
  | .character _, _, h => Option.some.inj h ▸ .single trivial
  | .list items, _, h => by
      unfold value? at h
      obtain ⟨values, hvalues, rfl⟩ := Option.map_eq_some_iff.1 h
      exact .array (distinct_itemValues? items values hvalues)
  | .map entries, _, h => by
      unfold value? at h
      obtain ⟨values, hvalues, h⟩ := Option.bind_eq_some_iff.1 h
      exact Format.distinct_nestedTable (distinct_entryValues? true entries values hvalues) h
  | .record [(name, inner)], _, h => by
      unfold value? at h
      obtain ⟨v, hv, rfl⟩ := Option.map_eq_some_iff.1 h
      exact .table (List.nodup_singleton name)
        (List.forall_mem_singleton.2 (distinct_value? inner v hv))
  | .record [], _, h => nomatch h
  | .record (_ :: _ :: _), _, h => nomatch h

theorem distinct_itemValues? : ∀ (items : List Ron) (values : List Value),
    itemValues? items = some values → ∀ v ∈ values, v.Distinct
  | [], _, h => by
      obtain rfl := Option.some.inj h
      simp
  | item :: rest, _, h => by
      unfold itemValues? at h
      obtain ⟨v, hv, h⟩ := Option.bind_eq_some_iff.1 h
      obtain ⟨more, hmore, he⟩ := Option.bind_eq_some_iff.1 h
      obtain rfl := Option.some.inj he
      rw [List.forall_mem_cons]
      exact ⟨distinct_value? item v hv, distinct_itemValues? rest more hmore⟩

theorem distinct_entryValues? (isFirst : Bool) : ∀ (entries : List (Ron × Ron)) (values : Table),
    entryValues? isFirst entries = some values → ∀ entry ∈ values, entry.2.Distinct
  | [], _, h => by
      obtain rfl := Option.some.inj h
      simp
  | (_, item) :: rest, _, h => by
      unfold entryValues? at h
      obtain ⟨k, _, h⟩ := Option.bind_eq_some_iff.1 h
      obtain ⟨v, hv, h⟩ := Option.bind_eq_some_iff.1 h
      obtain ⟨more, hmore, he⟩ := Option.bind_eq_some_iff.1 h
      obtain rfl := Option.some.inj he
      rw [List.forall_mem_cons]
      exact ⟨distinct_value? item v hv, distinct_entryValues? false rest more hmore⟩

end

/-- What is made of a list one by one is made of its members. -/
theorem exists_of_mem_mapM {α β : Type} {f : α → Option β} : ∀ (l : List α) (made : List β),
    l.mapM f = some made → ∀ b ∈ made, ∃ a ∈ l, f a = some b
  | [], made, h, b, hb => by
      rw [List.mapM_nil] at h
      obtain rfl := Option.some.inj h
      cases hb
  | a :: rest, made, h, b, hb => by
      rw [List.mapM_cons] at h
      obtain ⟨first, hfirst, h⟩ := Option.bind_eq_some_iff.1 h
      obtain ⟨more, hmore, he⟩ := Option.bind_eq_some_iff.1 h
      obtain rfl := Option.some.inj he
      rcases List.mem_cons.1 hb with rfl | hb
      · exact ⟨a, List.mem_cons_self, hfirst⟩
      · obtain ⟨other, hm, hother⟩ := exists_of_mem_mapM rest more hmore b hb
        exact ⟨other, List.mem_cons_of_mem _ hm, hother⟩

theorem distinct_table? {entries : List (String × Ron)} {table : Table}
    (h : table? entries = some table) : table.Distinct := by
  obtain ⟨values, hvalues, he⟩ := Option.bind_eq_some_iff.1 h
  obtain rfl := Option.some.inj he
  refine Format.distinct_lastWins fun entry hm => ?_
  obtain ⟨⟨_, ron⟩, _, hmade⟩ := exists_of_mem_mapM entries values hvalues entry hm
  obtain ⟨v, hv, rfl⟩ := Option.map_eq_some_iff.1 hmade
  exact distinct_value? ron v hv

end Ron

/-! ## 4. Data files -/

namespace DataFormat

/-- Tables that become dates leave the keys beside them. -/
theorem keys_datedEntries? : ∀ entries entries' : Table,
    datedEntries? entries = some entries' → entries'.keys = entries.keys
  | [], _, h => Option.some.inj h ▸ rfl
  | (key, item) :: rest, _, h => by
      unfold datedEntries? at h
      obtain ⟨v, _, h⟩ := Option.bind_eq_some_iff.1 h
      obtain ⟨more, hmore, he⟩ := Option.bind_eq_some_iff.1 h
      obtain rfl := Option.some.inj he
      exact congrArg (key :: ·) (keys_datedEntries? rest more hmore)

mutual

theorem distinct_dated? : ∀ v v' : Value, v.Distinct → dated? v = some v' → v'.Distinct
  | .array items, _, hv, h => by
      unfold dated? at h
      obtain ⟨items', hitems, rfl⟩ := Option.map_eq_some_iff.1 h
      exact .array (distinct_datedItems? items items' (Value.distinct_array.1 hv) hitems)
  | .table entries, _, hv, h => by
      unfold dated? at h
      split at h
      · obtain ⟨_, _, h⟩ := Option.bind_eq_some_iff.1 h
        exact Format.distinct_dateOfText h
      · obtain ⟨entries', hentries, rfl⟩ := Option.map_eq_some_iff.1 h
        obtain ⟨hkeys, heach⟩ := Value.distinct_table.1 hv
        refine .table ?_ (distinct_datedEntries? entries entries' heach hentries)
        rw [keys_datedEntries? entries entries' hentries]
        exact hkeys
  | .text _, _, hv, h => Option.some.inj h ▸ hv
  | .integer _, _, hv, h => Option.some.inj h ▸ hv
  | .float _, _, hv, h => Option.some.inj h ▸ hv
  | .boolean _, _, hv, h => Option.some.inj h ▸ hv
  | .date _, _, hv, h => Option.some.inj h ▸ hv

theorem distinct_datedItems? : ∀ items items' : List Value, (∀ v ∈ items, v.Distinct) →
    datedItems? items = some items' → ∀ v ∈ items', v.Distinct
  | [], _, _, h => by
      obtain rfl := Option.some.inj h
      simp
  | item :: rest, _, hitems, h => by
      unfold datedItems? at h
      obtain ⟨v, hv, h⟩ := Option.bind_eq_some_iff.1 h
      obtain ⟨more, hmore, he⟩ := Option.bind_eq_some_iff.1 h
      obtain rfl := Option.some.inj he
      rw [List.forall_mem_cons] at hitems ⊢
      exact ⟨distinct_dated? item v hitems.1 hv, distinct_datedItems? rest more hitems.2 hmore⟩

theorem distinct_datedEntries? : ∀ entries entries' : Table,
    (∀ entry ∈ entries, entry.2.Distinct) → datedEntries? entries = some entries' →
      ∀ entry ∈ entries', entry.2.Distinct
  | [], _, _, h => by
      obtain rfl := Option.some.inj h
      simp
  | (_, item) :: rest, _, hentries, h => by
      unfold datedEntries? at h
      obtain ⟨v, hv, h⟩ := Option.bind_eq_some_iff.1 h
      obtain ⟨more, hmore, he⟩ := Option.bind_eq_some_iff.1 h
      obtain rfl := Option.some.inj he
      rw [List.forall_mem_cons] at hentries ⊢
      exact ⟨distinct_dated? item v hentries.1 hv,
        distinct_datedEntries? rest more hentries.2 hmore⟩

end

/-- **No table that is read has a key twice, in whatever format the file is.** -/
theorem distinct_readTable {text : String} {table : Table} : ∀ {format : DataFormat},
    readTable text format = some table → table.Distinct
  | .ron, h => by
      obtain ⟨_, _, h⟩ := Option.bind_eq_some_iff.1 h
      exact Ron.distinct_table? h
  | .toml, h => by
      obtain ⟨entries, hread, h⟩ := Option.bind_eq_some_iff.1 h
      obtain ⟨hkeys, heach⟩ := Toml.distinct_read hread
      refine ⟨?_, distinct_datedEntries? entries table heach h⟩
      show table.keys.Nodup
      rw [keys_datedEntries? entries table h]
      exact hkeys
  | .json, h => by
      obtain ⟨_, _, h⟩ := Option.bind_eq_some_iff.1 h
      exact Json.distinct_table? h

end DataFormat

end MasterSchema
