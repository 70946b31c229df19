import Tether.Proofs.Lines
import Tether.Settings.Document

/-!
# Settings read back

Settings that are written to a document are read back as they were, and the only settings that
cannot be written have a number that no document can hold (`Settings.roundTrip`).

`Toml.statements?_writeLines` gives back the statements of the lines, so what is left is how they
are put together. While the bindings are added, the document is a fixed list of entries with a
list of tables at its end (`Toml.Node.withItems`), and every line of a binding acts on the last of
these tables only (`Toml.Node.change_withItems`). So the lines of a binding add one table
(`BindingSetting.addAll_lines`), which is decoded to the binding
(`BindingSetting.ofValue?_node`).
-/

namespace Tether.Toml

/-! ## Adding lines -/

theorem Draft.addAll_append (xs ys : List Statement) (d : Draft) :
    Draft.addAll (xs ++ ys) d = (Draft.addAll xs d).bind (Draft.addAll ys) := by
  induction xs generalizing d with
  | nil => rfl
  | cons x xs ih => cases h : d.add x <;> simp [Draft.addAll, h, ih]

namespace Node

variable {key : String} {entries : List (String × Node)}

theorem lookup_append (h : lookup key entries = none) (rest : List (String × Node)) :
    lookup key (entries ++ rest) = lookup key rest := by
  induction entries with
  | nil => rfl
  | cons e entries ih =>
    by_cases he : e.1 = key
    · simp [lookup, he] at h
    · simp only [lookup, he, ↓reduceIte] at h
      simp [lookup, he, ih h]

theorem assign_append (h : lookup key entries = none) (n : Node) (rest : List (String × Node)) :
    assign key n (entries ++ rest) = entries ++ assign key n rest := by
  induction entries with
  | nil => rfl
  | cons e entries ih =>
    by_cases he : e.1 = key
    · simp [lookup, he] at h
    · simp only [lookup, he, ↓reduceIte] at h
      simp [assign, he, ih h]

theorem changeLast_append (f : Node → Option Node) (items : List Node) (n : Node) :
    changeLast f (items ++ [n]) = (f n).map fun m => items ++ [m] := by
  induction items with
  | nil => cases h : f n <;> simp [changeLast, h]
  | cons i items ih =>
    obtain ⟨j, rest, hrest⟩ : ∃ j rest, items ++ [n] = j :: rest := by
      cases items <;> simp
    rw [List.cons_append, hrest, changeLast, ← hrest, ih]
    · cases f n <;> rfl
    · simp

/-- A document with a list of tables behind its other entries. -/
def withItems (entries : List (String × Node)) (key : String) (items : List Node) : Node :=
  .table false false (entries ++ if items.isEmpty then [] else [(key, .tables items)])

theorem withItems_concat (entries : List (String × Node)) (key : String) (items : List Node)
    (n : Node) : withItems entries key (items ++ [n]) =
      .table false false (entries ++ [(key, .tables (items ++ [n]))]) := by
  simp [withItems]

theorem openItem_withItems (h : lookup key entries = none) (items : List Node) :
    openItem key (withItems entries key items) =
      some (withItems entries key (items ++ [.table false false []])) := by
  cases items with
  | nil =>
    have hassign := assign_append h (.tables [.table false false []]) []
    rw [List.append_nil, assign] at hassign
    simp [withItems, openItem, h, hassign]
  | cons i items =>
    simp [withItems, openItem, lookup_append h, lookup, assign_append h, assign]

/-- What leads through the list of tables goes to the last of them. -/
theorem change_withItems (h : lookup key entries = none) (dotted : Bool)
    (f : Node → Option Node) (path : List String) (items : List Node) (n : Node) :
    change dotted f (key :: path) (withItems entries key (items ++ [n])) =
      (change dotted f path n).map fun m => withItems entries key (items ++ [m]) := by
  rw [withItems_concat, change, lookup_append h]
  simp only [lookup, ↓reduceIte, changeLast_append]
  cases change dotted f path n <;>
    simp [assign_append h, assign, withItems_concat]

theorem toItems_eq_map (items : List Node) : toItems items = items.map toValue := by
  induction items with
  | nil => rfl
  | cons i items ih => simp [toItems, ih]

end Node

end Tether.Toml

namespace Tether

open Toml (Node Draft Line Statement)

/-! ## Fields -/

/-- A field of a table is found by its name. -/
theorem Fields.field_named {α : Type} (entries : List (String × Toml.Value)) (name : String)
    (place : Nat) (decode : Toml.Value → Option α) (default : Option α) :
    (named entries).field name place decode default =
      ((lookup name entries).map decode).getD default := by
  cases h : lookup name entries <;> simp [field, get?, h]

theorem count?_natCast (n : Nat) : count? (.integer n) = some n := rfl

/-! ## Bindings -/

/-- The entry of a policy in the table of its binding. -/
def PolicySetting.entry : PolicySetting → String × Node
  | .hostWins => ("policy", .value (.string "host_wins"))
  | .ecsWins => ("policy", .value (.string "ecs_wins"))
  | .merge name => ("policy", .table false false [("merge", .value (.string name))])

/-- The table of a binding. -/
def BindingSetting.node (b : BindingSetting) : Node :=
  .table false false [("capability", .value (.string b.capability)),
    ("component", .value (.string b.component)),
    ("direction", .value (.string b.direction.keyword)), b.policy.entry]

namespace BindingSetting

variable {entries : List (String × Node)}

/-- The lines of a binding add its table to the document. -/
theorem addAll_lines (h : Node.lookup "bindings" entries = none) (b : BindingSetting)
    (items : List Node) (here : List String) : ∃ there,
      Draft.addAll (b.lines.map Line.toStatement) ⟨.withItems entries "bindings" items, here⟩ =
        some ⟨.withItems entries "bindings" (items ++ [b.node]), there⟩ := by
  cases hpolicy : b.policy <;>
    simp [lines, hpolicy, PolicySetting.lines, Line.toStatement, Draft.addAll, Draft.add,
      Node.change, Node.openItem_withItems h, Node.change_withItems h, Node.insertAt,
      Node.insert, Node.openTable, Node.lookup, Node.assign, Toml.Simple.toValue, node,
      PolicySetting.entry]

theorem addAll_flatMap (h : Node.lookup "bindings" entries = none) (bs : List BindingSetting)
    (items : List Node) (here : List String) : ∃ there,
      Draft.addAll ((bs.flatMap lines).map Line.toStatement)
          ⟨.withItems entries "bindings" items, here⟩ =
        some ⟨.withItems entries "bindings" (items ++ bs.map node), there⟩ := by
  induction bs generalizing items here with
  | nil => exact ⟨here, by simp [Draft.addAll]⟩
  | cons b bs ih =>
    obtain ⟨there, hb⟩ := addAll_lines h b items here
    obtain ⟨last, hbs⟩ := ih (items ++ [b.node]) there
    exact ⟨last, by
      rw [List.flatMap_cons, List.map_append, Draft.addAll_append, hb, Option.bind_some, hbs,
        List.append_assoc, List.map_cons, List.singleton_append]⟩

/-- The table of a binding is decoded to the binding. -/
theorem ofValue?_node (b : BindingSetting) : ofValue? b.node.toValue = some b := by
  cases b with
  | mk capability component direction policy =>
    cases policy <;>
      simp [node, PolicySetting.entry, Node.toValue, Node.toEntries, ofValue?, Fields.ofValue?,
        Fields.field_named, Fields.lookup, text?, Direction.ofValue?,
        Direction.ofKeyword?_keyword, PolicySetting.ofValue?, PolicySetting.ofKeyword?]

theorem listOfValue?_nodes (bs : List BindingSetting) :
    listOfValue? (.array (Node.toItems (bs.map node))) = some bs := by
  rw [listOfValue?, Node.toItems_eq_map]
  induction bs with
  | nil => rfl
  | cons b bs ih => simp_all [List.mapM_cons, ofValue?_node]

end BindingSetting

/-! ## Settings -/

/-- The entry of a number of workers. -/
def Workers.entries : Workers → List (String × Node)
  | .auto => []
  | .count n => [("workers", .value (.integer n))]

/-- The table of settings of passes. -/
def SyncSettings.node (s : SyncSettings) : Node :=
  .table false false
    (s.workers.entries ++ [("parallel_threshold", .value (.integer s.parallelThreshold))])

theorem SyncSettings.ofValue?_node (s : SyncSettings) : ofValue? s.node.toValue = some s := by
  obtain ⟨workers, threshold⟩ := s
  cases workers <;>
    simp [node, Workers.entries, Node.toValue, Node.toEntries, ofValue?, Fields.ofValue?,
      Fields.field_named, Fields.lookup, count?_natCast]

/-- The table of settings of the queue. -/
def QueueSettings.node (s : QueueSettings) : Node :=
  .table false false [("warn_on_stale", .value (.boolean s.warnOnStale))]

theorem QueueSettings.ofValue?_node (s : QueueSettings) : ofValue? s.node.toValue = some s := by
  simp [node, Node.toValue, Node.toEntries, ofValue?, Fields.ofValue?, Fields.field_named,
    Fields.lookup, flag?]

namespace Settings

/-- The entries of settings in front of their bindings. An empty list of bindings is one of
them. -/
def entries (s : Settings) : List (String × Node) :=
  (if s.bindings.isEmpty then [("bindings", .value (.array []))] else []) ++
    [("sync", s.sync.node), ("queue", s.queue.node)]

/-- The document of settings. -/
def document (s : Settings) : Node :=
  .withItems s.entries "bindings" (s.bindings.map BindingSetting.node)

/-- The lines in front of the bindings. -/
def opening (s : Settings) : List Line :=
  (if s.bindings.isEmpty then [.pair "bindings" .nothing] else []) ++
    (.header [] "sync" :: s.sync.workers.lines ++
      [.pair "parallel_threshold" (.integer s.sync.parallelThreshold)]) ++
    [.header [] "queue", .pair "warn_on_stale" (.boolean s.queue.warnOnStale)]

theorem lines_eq (s : Settings) : s.lines = s.opening ++ s.bindings.flatMap BindingSetting.lines :=
  rfl

theorem addAll_opening (s : Settings) :
    Draft.addAll (s.opening.map Line.toStatement) {} =
      some ⟨.table false false s.entries, ["queue"]⟩ := by
  cases hbindings : s.bindings.isEmpty <;> cases hworkers : s.sync.workers <;>
    simp [opening, entries, SyncSettings.node, QueueSettings.node, hbindings, hworkers,
      Workers.lines, Workers.entries, Line.toStatement, Draft.addAll, Draft.add, Node.empty,
      Node.change, Node.insertAt, Node.insert, Node.openTable, Node.lookup, Node.assign,
      Toml.Simple.toValue]

/-- The lines of settings are put together to their document. -/
theorem assemble?_lines (s : Settings) :
    Toml.assemble? (s.lines.map Line.toStatement) = some s.document.toValue := by
  have hassemble : ∃ there, Draft.addAll (s.lines.map Line.toStatement) {} =
      some ⟨s.document, there⟩ := by
    rw [lines_eq, List.map_append, Draft.addAll_append, addAll_opening, Option.bind_some]
    cases hbindings : s.bindings with
    | nil => exact ⟨["queue"], by simp [document, Node.withItems, hbindings, Draft.addAll]⟩
    | cons b bs =>
      have hkey : Node.lookup "bindings" s.entries = none := by
        simp [entries, hbindings, Node.lookup]
      obtain ⟨there, h⟩ := BindingSetting.addAll_flatMap hkey (b :: bs) [] ["queue"]
      exact ⟨there, by simpa [document, Node.withItems, hbindings] using h⟩
  obtain ⟨there, h⟩ := hassemble
  rw [Toml.assemble?, h, Option.map_some]

/-- The document of settings is decoded to the settings. -/
theorem ofValue?_document (s : Settings) : ofValue? s.document.toValue = some s := by
  obtain ⟨sync, queue, bindings⟩ := s
  have hlist := BindingSetting.listOfValue?_nodes bindings
  cases bindings with
  | nil =>
    simp [document, entries, Node.withItems, Node.toValue, Node.toEntries, ofValue?,
      Fields.ofValue?, Fields.field_named, Fields.lookup, sync.ofValue?_node,
      queue.ofValue?_node, BindingSetting.listOfValue?]
  | cons b bs =>
    rw [List.map_cons] at hlist
    simp [document, entries, Node.withItems, Node.toValue, Node.toEntries, ofValue?,
      Fields.ofValue?, Fields.field_named, Fields.lookup, sync.ofValue?_node,
      queue.ofValue?_node, hlist]

/-- The names in the lines of settings need no quotes. -/
theorem isPlain_lines (s : Settings) : ∀ l ∈ s.lines, l.IsPlain := by
  have hpolicy : ∀ p : PolicySetting, ∀ l ∈ p.lines, l.IsPlain := by
    intro p
    cases p <;> simp [PolicySetting.lines, Line.IsPlain] <;> decide
  have hopening : ∀ l ∈ s.opening, l.IsPlain := by
    cases hbindings : s.bindings.isEmpty <;> cases hworkers : s.sync.workers <;>
      simp [opening, hbindings, hworkers, Workers.lines, Line.IsPlain] <;> decide
  have hbinding : ∀ b : BindingSetting, ∀ l ∈ b.lines, l.IsPlain := by
    intro b
    simp only [BindingSetting.lines, List.cons_append, List.nil_append, List.forall_mem_cons]
    have hitem : (Line.item [] "bindings").IsPlain := ⟨by simp, by decide, by decide⟩
    have hcapability : Toml.IsBareName "capability" := by decide
    have hcomponent : Toml.IsBareName "component" := by decide
    have hdirection : Toml.IsBareName "direction" := by decide
    exact ⟨hitem, hcapability, hcomponent, hdirection, hpolicy b.policy⟩
  intro l hl
  rw [lines_eq] at hl
  rcases List.mem_append.mp hl with hl | hl
  · exact hopening l hl
  · obtain ⟨b, -, hl⟩ := List.mem_flatMap.mp hl
    exact hbinding b l hl

theorem fits_eq_false_iff (n : Nat) : Toml.fits n = false ↔ 2 ^ 63 - 1 < n := by
  have hleast : Toml.leastInteger ≤ n := by
    simp only [Toml.leastInteger]
    omega
  rw [Toml.fits, decide_eq_true hleast, Bool.true_and, decide_eq_false_iff_not]
  simp only [Toml.greatestInteger]
  omega

/-- Only a number that is too large keeps settings from being written. -/
theorem text?_eq_none_iff (s : Settings) : s.text? = none ↔
    (∃ n, s.sync.workers = .count n ∧ 2 ^ 63 - 1 < n) ∨ 2 ^ 63 - 1 < s.sync.parallelThreshold := by
  have hpolicy (p : PolicySetting) (key : String) (n : Nat) :
      Line.pair key (.integer n) ∉ p.lines := by
    cases p <;> simp [PolicySetting.lines]
  have hmem (key : String) (n : Nat) : Line.pair key (.integer n) ∈ s.lines ↔
      key = "workers" ∧ s.sync.workers = .count n ∨
        key = "parallel_threshold" ∧ n = s.sync.parallelThreshold := by
    cases hbindings : s.bindings.isEmpty <;> cases hworkers : s.sync.workers <;>
      simp [lines, hbindings, hworkers, Workers.lines, BindingSetting.lines, hpolicy, eq_comm]
  simp only [text?, Option.map_eq_none_iff, Toml.writeLines?_eq_none_iff, hmem, fits_eq_false_iff]
  constructor
  · rintro ⟨key, n, ⟨-, h⟩ | ⟨-, rfl⟩, hn⟩
    · exact .inl ⟨n, h, hn⟩
    · exact .inr hn
  · rintro (⟨n, h, hn⟩ | hn)
    · exact ⟨"workers", n, .inl ⟨rfl, h⟩, hn⟩
    · exact ⟨"parallel_threshold", s.sync.parallelThreshold, .inr ⟨rfl, rfl⟩, hn⟩

/-- Settings that are written are read back as they were, whatever their names are, and the only
settings that cannot be written have a number beyond the greatest of a document. -/
theorem roundTrip (s : Settings) :
    (s.text? = none ↔ (∃ n, s.sync.workers = .count n ∧ 2 ^ 63 - 1 < n) ∨
      2 ^ 63 - 1 < s.sync.parallelThreshold) ∧
    ∀ t, s.text? = some t → ofText? t = some s := by
  refine ⟨s.text?_eq_none_iff, fun t ht => ?_⟩
  obtain ⟨u, hu, rfl⟩ : ∃ u, Toml.writeLines? true s.lines = some u ∧ String.ofList u = t := by
    simpa [text?] using ht
  rw [ofText?, Toml.document?_writeLines s.isPlain_lines hu, assemble?_lines, Option.bind_some,
    ofValue?_document]

/-- Settings whose names need quotes and escapes. -/
def crooked : Settings where
  sync := { workers := .count 4 }
  bindings := [⟨"", "\"\\", .bidirectional, .merge "it's\n\x01"⟩]

/-- The text of crooked settings. -/
def crookedText : String :=
  "[sync]\nworkers = 4\nparallel_threshold = 256\n\n[queue]\nwarn_on_stale = true\n\n" ++
  "[[bindings]]\ncapability = \"\"\ncomponent = '\"\\'\ndirection = \"bidirectional\"\n\n" ++
  "[bindings.policy]\nmerge = \"\"\"\nit's\n\\u0001\"\"\"\n"

theorem roundTrip_crooked :
    crooked.text? = some crookedText ∧ ofText? crookedText = some crooked :=
  have htext : crooked.text? = some crookedText := by decide +kernel
  ⟨htext, (roundTrip crooked).2 crookedText htext⟩

end Settings

end Tether
