import Mathlib
import TensorLowering.Graph.Store

set_option autoImplicit false

/-! # What a graph stores

A graph that starts empty holds exactly what its history has inserted, under identifiers that count
the values and the nodes from zero. One insertion appends to what there is (`Graph.Inserted`), so
whatever is said of a history by `Graph.Stores` stays true when the history goes on
(`Graph.Stores.insert`, `Graph.Stores.run`). -/

namespace TensorLowering

namespace Graph

/-! ## Identifiers that are enumerated -/

/-- As long as identifiers suffice, one is enumerated for each index. -/
theorem map_index_idsBelow {sort : IdSort} {count : Nat} (h : count ≤ idLimit) :
    (idsBelow count : List (Id sort)).map Id.index = List.range count := by
  have hindex : ∀ index ∈ List.range count,
      ((Id.ofIndex index : Checked (Id sort)).toOption).map Id.index = some index := by
    intro index hindex
    rw [Id.ofIndex_of_lt (Nat.lt_of_lt_of_le (List.mem_range.1 hindex) h)]
    rfl
  rw [idsBelow, List.map_filterMap, List.filterMap_congr hindex, List.filterMap_some]

/-- The identifiers that are enumerated are the ones with the indices from zero on. -/
theorem eq_idsBelow {sort : IdSort} {count : Nat} (h : count ≤ idLimit) {ids : List (Id sort)}
    (hids : ids.map Id.index = List.range count) : idsBelow count = ids := by
  have hinjective : Function.Injective fun id : Id sort => id.index := fun _ _ => Id.ext_index
  exact List.map_injective_iff.2 hinjective ((map_index_idsBelow h).trans hids.symm)

/-! ## What is found under the identifiers of an insertion -/

/-- What an insertion adds is found under the identifiers that it was given. -/
structure Holds (graph : Graph) (insertion : Insertion) (issued : Issued) : Prop where
  value_eq : issued.value?.map graph.value? = insertion.value?.map some
  node_eq : issued.node?.map graph.node? = (insertion.node? issued.value?).map some

/-- A value has been added together with a node, which has that value as its only output. -/
def Produces (graph : Graph) (issued : Issued) (value : Value) : Prop :=
  ∃ (output : ValueId) (id : NodeId) (node : Node),
    issued = { value? := some output, node? := some id } ∧ graph.value? output = some value ∧
      graph.node? id = some node ∧ node.operator.outputs = [output]

section

variable {graph later : Graph} {insertion : Insertion} {issued : Issued}

/-- A look-up that keeps what it finds still finds what was added. -/
theorem map_find_eq_of_keeps {α β : Type} {find find' : α → Option β} {id? : Option α}
    {added? : Option β} (hkeeps : ∀ id found, find id = some found → find' id = some found)
    (h : id?.map find = added?.map some) : id?.map find' = added?.map some := by
  cases id? with
  | none => exact h
  | some id =>
      cases added? with
      | none => cases h
      | some added => exact congrArg some (hkeeps id added (Option.some.inj h))

/-- What an identifier names does not change. -/
theorem Holds.mono (h : graph.Holds insertion issued) (hlater : graph.Extends later) :
    later.Holds insertion issued where
  value_eq := map_find_eq_of_keeps hlater.value?_eq h.value_eq
  node_eq := map_find_eq_of_keeps hlater.node?_eq h.node_eq

/-- What is added at the end is found at the index before which everything else is. -/
theorem map_getElem?_append {sort : IdSort} {α : Type} {entries : Array α} {added? : Option α}
    {id? : Option (Id sort)} (hid : id?.map Id.index = added?.map fun _ => entries.size) :
    (id?.map fun id => (entries ++ added?.toArray)[id.index]?) = added?.map some := by
  cases added? with
  | none =>
      rw [Option.map_none, Option.map_eq_none_iff] at hid
      rw [hid]
      rfl
  | some added =>
      obtain ⟨id, rfl, hindex⟩ := Option.map_eq_some_iff.1 hid
      simp [hindex]

/-- What an insertion has just added is found. -/
theorem Inserted.holds (h : graph.Inserted insertion later issued) :
    later.Holds insertion issued := by
  refine { value_eq := ?_, node_eq := ?_ }
  · show (issued.value?.map fun id => later.values[id.index]?) = _
    rw [h.values_eq]
    exact map_getElem?_append h.value_index
  · show (issued.node?.map fun id => later.nodes[id.index]?) = _
    rw [h.nodes_eq]
    exact map_getElem?_append h.node_index

end

/-- An insertion that adds a value and a node that outputs it produces the value. -/
theorem Holds.produces {graph : Graph} {insertion : Insertion} {issued : Issued} {value : Value}
    {node : ValueId → Node} (h : graph.Holds insertion issued)
    (hvalue : insertion.value? = some value)
    (hnode : ∀ output, insertion.node? (some output) = some (node output))
    (houtputs : ∀ output, (node output).operator.outputs = [output]) :
    graph.Produces issued value := by
  have hfirst := h.value_eq
  rw [hvalue] at hfirst
  obtain ⟨output, houtput, hfound⟩ := Option.map_eq_some_iff.1 hfirst
  have hsecond := h.node_eq
  rw [houtput, hnode] at hsecond
  obtain ⟨id, hid, hnodeFound⟩ := Option.map_eq_some_iff.1 hsecond
  refine ⟨output, id, node output, ?_, hfound, hnodeFound, houtputs output⟩
  cases issued with
  | mk value? node? =>
      cases houtput
      cases hid
      rfl

/-! ## The invariant of a history -/

/-- A graph holds what has been inserted, in order and nothing else, and identifiers suffice for
    it. -/
structure Stores (graph : Graph) (history : List Insertion) (issued : List Issued) : Prop where
  limits : graph.WithinLimits
  value_indices : (issued.filterMap Issued.value?).map Id.index = List.range graph.values.size
  node_indices : (issued.filterMap Issued.node?).map Id.index = List.range graph.nodes.size
  holds : List.Forall₂ graph.Holds history issued

theorem stores_empty : Graph.empty.Stores [] [] where
  limits := ⟨Nat.zero_le _, Nat.zero_le _⟩
  value_indices := rfl
  node_indices := rfl
  holds := .nil

/-- Indices that count entries count on when one is appended under the next index. -/
theorem map_index_append {sort : IdSort} {α : Type} {entries : Array α} {added? : Option α}
    {ids : List (Id sort)} {id? : Option (Id sort)}
    (hids : ids.map Id.index = List.range entries.size)
    (hid : id?.map Id.index = added?.map fun _ => entries.size) :
    (ids ++ id?.toList).map Id.index = List.range (entries ++ added?.toArray).size := by
  cases added? with
  | none =>
      rw [Option.map_none, Option.map_eq_none_iff] at hid
      rw [hid]
      simpa using hids
  | some added =>
      obtain ⟨id, rfl, hindex⟩ := Option.map_eq_some_iff.1 hid
      have hsize : (entries ++ (some added).toArray).size = entries.size + 1 := by simp
      rw [hsize, List.range_succ, List.map_append, hids, Option.toList_some, List.map_singleton,
        hindex]

/-- An insertion is stored besides what there was. -/
theorem Stores.insert {graph later : Graph} {history : List Insertion} {issued : List Issued}
    {insertion : Insertion} {given : Issued} (h : graph.Stores history issued)
    (hinsert : graph.insert insertion = .ok (later, given)) :
    later.Stores (history ++ [insertion]) (issued ++ [given]) := by
  have hinserted := inserted_of_insert hinsert
  have hgiven {α : Type} (f : Issued → Option α) :
      (issued ++ [given]).filterMap f = issued.filterMap f ++ (f given).toList := by
    rw [List.filterMap_append]
    cases hf : f given <;> simp [hf]
  refine
    { limits := hinserted.withinLimits h.limits
      value_indices := ?_
      node_indices := ?_
      holds := ?_ }
  · rw [hgiven, hinserted.values_eq]
    exact map_index_append h.value_indices hinserted.value_index
  · rw [hgiven, hinserted.nodes_eq]
    exact map_index_append h.node_indices hinserted.node_index
  · have hearlier : List.Forall₂ later.Holds history issued :=
      h.holds.imp fun _ _ hheld => hheld.mono (extends_insert hinsert)
    exact List.rel_append hearlier (.cons hinserted.holds .nil)

/-- The same for several insertions. -/
theorem Stores.run {graph later : Graph} {history more : List Insertion}
    {issued given : List Issued} (h : graph.Stores history issued)
    (hrun : graph.run more = .ok (later, given)) :
    later.Stores (history ++ more) (issued ++ given) := by
  induction more generalizing graph history issued given with
  | nil =>
      cases hrun
      simpa using h
  | cons insertion rest ih =>
      simp only [Graph.run, Outcome.except_bind_eq_ok] at hrun
      obtain ⟨⟨middle, first⟩, hinsert, ⟨last, others⟩, hrest, hpure⟩ := hrun
      cases hpure
      have hstored := ih (h.insert hinsert) hrest
      rwa [List.append_assoc, List.append_assoc] at hstored

/-! ## What follows from it -/

/-- The identifiers that are enumerated are those that were issued, in order. -/
theorem Stores.valueIds_eq {graph : Graph} {history : List Insertion} {issued : List Issued}
    (h : graph.Stores history issued) : graph.valueIds = issued.filterMap Issued.value? :=
  eq_idsBelow h.limits.values_le h.value_indices

theorem Stores.nodeIds_eq {graph : Graph} {history : List Insertion} {issued : List Issued}
    (h : graph.Stores history issued) : graph.nodeIds = issued.filterMap Issued.node? :=
  eq_idsBelow h.limits.nodes_le h.node_indices

/-- Identifiers whose indices count are all different, and so are the words that they are stored
    as. -/
theorem nodup_stored {sort : IdSort} {count : Nat} {ids : List (Id sort)}
    (h : ids.map Id.index = List.range count) : (ids.map Id.stored).Nodup := by
  have hids : ids.Nodup := List.Nodup.of_map Id.index (h ▸ List.nodup_range)
  exact hids.map fun _ _ => Id.stored_injective

/-- Each node is enumerated with its identifier. -/
theorem node?_of_mem_entries {graph : Graph} (h : graph.nodes.size ≤ idLimit)
    {entry : NodeId × Node} (hentry : entry ∈ graph.entries) :
    graph.node? entry.1 = some entry.2 := by
  obtain ⟨place, hplace⟩ := List.mem_iff_getElem?.1 hentry
  obtain ⟨hid, hnode⟩ := List.getElem?_zip_eq_some.1 hplace
  -- The identifier at a place of the enumeration has that place as its index.
  have hindex : (List.range graph.nodes.size)[place]? = some entry.1.index := by
    rw [← map_index_idsBelow h, List.getElem?_map]
    exact congrArg (Option.map Id.index) hid
  obtain ⟨hlt, hplace⟩ := List.getElem?_eq_some_iff.1 hindex
  rw [List.getElem_range] at hplace
  rw [node?, ← hplace]
  simpa using hnode

theorem map_fst_entries {graph : Graph} (h : graph.nodes.size ≤ idLimit) :
    graph.entries.map Prod.fst = graph.nodeIds := by
  have hindices : graph.nodeIds.map Id.index = List.range graph.nodes.size := map_index_idsBelow h
  have hlength : graph.nodeIds.length = graph.nodes.size := by
    simpa using congrArg List.length hindices
  exact List.map_fst_zip (by simp [hlength])

/-- The identifiers that name a value are those that were issued. -/
theorem Stores.value?_eq_none {graph : Graph} {history : List Insertion} {issued : List Issued}
    (h : graph.Stores history issued) {id : ValueId} :
    graph.value? id = none ↔ id ∉ issued.filterMap Issued.value? := by
  rw [← h.valueIds_eq, valueIds, mem_idsBelow, value?, Array.getElem?_eq_none_iff, Nat.not_lt]

theorem Stores.node?_eq_none {graph : Graph} {history : List Insertion} {issued : List Issued}
    (h : graph.Stores history issued) {id : NodeId} :
    graph.node? id = none ↔ id ∉ issued.filterMap Issued.node? := by
  rw [← h.nodeIds_eq, nodeIds, mem_idsBelow, node?, Array.getElem?_eq_none_iff, Nat.not_lt]

/-- What is said of an insertion and of what it was given holds of the two at one place of their
    lists. -/
theorem Stores.holds_of_mem_zip {graph : Graph} {history : List Insertion} {issued : List Issued}
    (h : graph.Stores history issued) {insertion : Insertion} {given : Issued}
    (hmem : (insertion, given) ∈ history.zip issued) : graph.Holds insertion given :=
  (List.forall₂_iff_zip.1 h.holds).2 hmem

/-- **A graph stores its history.** Whenever a history of insertions into the empty graph has run
    without a fault, the identifiers that were issued count the values and the nodes from zero, no
    two are stored alike, and what each insertion added is found under its own, and under no other
    anything. The enumerations list these identifiers in order. An input or a constant has added one
    value and one node, which outputs that value. Whatever is inserted later changes no look-up and
    gets identifiers after these. Carried out in place the history comes to the same: no number of
    entries is truncated when it is cast to a word, and if one more does not fit, the graph stays as
    it is. -/
theorem stores_of_run (history : List Insertion) (graph : Graph) (issued : List Issued)
    (hrun : Graph.empty.run history = .ok (graph, issued)) :
    graph.Stores history issued ∧
    ((issued.filterMap Issued.value?).map Id.stored).Nodup ∧
    ((issued.filterMap Issued.node?).map Id.stored).Nodup ∧
    (∀ id, graph.value? id = none ↔ id ∉ issued.filterMap Issued.value?) ∧
    (∀ id, graph.node? id = none ↔ id ∉ issued.filterMap Issued.node?) ∧
    graph.valueIds = issued.filterMap Issued.value? ∧
    graph.nodeIds = issued.filterMap Issued.node? ∧
    graph.entries.map Prod.fst = graph.nodeIds ∧
    (∀ entry ∈ graph.entries, graph.node? entry.1 = some entry.2) ∧
    (∀ (name : String) (shape : Shape) (elementType : ElementType) (given : Issued),
      (Insertion.input name shape elementType, given) ∈ history.zip issued →
      graph.Produces given { name, shape, elementType }) ∧
    (∀ (name : String) (data : ConstantTensor) (given : Issued),
      (Insertion.constant name data, given) ∈ history.zip issued →
      graph.Produces given { name, shape := data.shape, elementType := .float32 }) ∧
    (∀ (more : List Insertion) (later : Graph) (given : List Issued),
      graph.run more = .ok (later, given) →
      graph.Extends later ∧ later.Stores (history ++ more) (issued ++ given)) ∧
    Edit.build history Graph.empty = .ok issued graph ∧
    (UInt32.ofNat graph.values.size).toNat = graph.values.size ∧
    (UInt32.ofNat graph.nodes.size).toNat = graph.nodes.size ∧
    (∀ value, Edit.addValue value graph =
      if h : graph.values.size < idLimit then
        .ok ⟨graph.values.size, h⟩ { graph with values := graph.values.push value }
      else .error .idOverflow graph) ∧
    ∀ node, Edit.addNode node graph =
      if h : graph.nodes.size < idLimit then
        .ok ⟨graph.nodes.size, h⟩ { graph with nodes := graph.nodes.push node }
      else .error .idOverflow graph := by
  have hstores : graph.Stores history issued := stores_empty.run hrun
  have hinput (name : String) (shape : Shape) (elementType : ElementType) (given : Issued)
      (hmem : (Insertion.input name shape elementType, given) ∈ history.zip issued) :
      graph.Produces given { name, shape, elementType } :=
    (hstores.holds_of_mem_zip hmem).produces rfl (fun _ => rfl) fun _ => rfl
  have hconstant (name : String) (data : ConstantTensor) (given : Issued)
      (hmem : (Insertion.constant name data, given) ∈ history.zip issued) :
      graph.Produces given { name, shape := data.shape, elementType := .float32 } :=
    (hstores.holds_of_mem_zip hmem).produces rfl (fun _ => rfl) fun _ => rfl
  have hbuild : Edit.build history Graph.empty = .ok issued graph := by
    have houtcome := Edit.outcome_build history stores_empty.limits
    rw [hrun, Edit.outcome] at houtcome
    split at houtcome
    · next given later heq =>
        cases houtcome
        exact heq
    · cases houtcome
  exact ⟨hstores, nodup_stored hstores.value_indices, nodup_stored hstores.node_indices,
    fun _ => hstores.value?_eq_none, fun _ => hstores.node?_eq_none, hstores.valueIds_eq,
    hstores.nodeIds_eq, map_fst_entries hstores.limits.nodes_le,
    fun _ => node?_of_mem_entries hstores.limits.nodes_le, hinput, hconstant,
    fun _ _ _ hmore => ⟨extends_run hmore, hstores.run hmore⟩, hbuild,
    Id.toNat_ofNat hstores.limits.values_le, Id.toNat_ofNat hstores.limits.nodes_le,
    fun _ => Edit.addValue_eq _ hstores.limits.values_le,
    fun _ => Edit.addNode_eq _ hstores.limits.nodes_le⟩

/-- The insertions of a softmax between an input and an output, besides a constant. -/
def softmaxHistory : List Insertion :=
  [.input "x" [8, 10] .float32,
    .constant "w" (.ofArray #[⟨0x3f800000⟩, ⟨0x40000000⟩]),
    .value { name := "y", shape := [8, 10], elementType := .float32 },
    .node { name := "softmax", operator := .softmax { input := 0, output := 2 } },
    .output "y" 2]

/-- Three values and four nodes are counted each for itself. -/
theorem stores_of_run_softmax :
    ∃ graph issued, Graph.empty.run softmaxHistory = .ok (graph, issued) ∧
      Edit.build softmaxHistory Graph.empty = .ok issued graph ∧
      graph.valueIds = [0, 1, 2] ∧ graph.nodeIds = [0, 1, 2, 3] ∧ graph.value? 3 = none ∧
      graph.Produces { value? := some 1, node? := some 1 }
        { name := "w", shape := [2], elementType := .float32 } := by
  obtain ⟨-, -, -, hvalue, -, hvalueIds, hnodeIds, -, -, -, hconstant, -, hbuild, -⟩ :=
    stores_of_run softmaxHistory _ _ rfl
  exact ⟨_, _, rfl, hbuild, hvalueIds, hnodeIds, (hvalue 3).2 (by decide),
    hconstant "w" _ _ (.tail _ (.head _))⟩

end Graph

end TensorLowering
