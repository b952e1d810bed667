import TensorLowering.Graph.History
import TensorLowering.Proofs.Operands

set_option autoImplicit false

/-! # What a lowering depends on

As a rule reads only the values that its operator mentions, a schedule is lowered alike wherever its
nodes and their values are the same, and a program stays the same while its graph and its allocation
grow (`Pass.run_depends_on_operands`). -/

namespace TensorLowering

/-! ## What a node needs of its graph -/

/-- The two graphs, with their allocations, have the same node under each identifier of the schedule
    and agree on the values that these nodes mention. -/
structure Graph.AgreeFor (schedule : List NodeId) (graph graph' : Graph) (oracle oracle' : Oracle) :
    Prop where
  node?_eq : ∀ id ∈ schedule, graph.node? id = graph'.node? id
  agreeOn : ∀ id ∈ schedule, ∀ node, graph.node? id = some node →
    Context.AgreeOn node.operator.operands (graph.context oracle) (graph'.context oracle')

namespace Pass

section

variable {pass : Pass} (hbuiltin : pass.registry.IsBuiltin) {graph graph' : Graph}
  (oracle' : Oracle) (workers' : Workers) {schedule : List NodeId} {id : NodeId}

include hbuiltin

theorem runNode_congr (hagree : graph.AgreeFor schedule graph' pass.oracle oracle')
    (hid : id ∈ schedule) :
    pass.runNode graph id =
      { pass with oracle := oracle', workers := workers' : Pass }.runNode graph' id := by
  unfold runNode
  rw [← hagree.node?_eq id hid]
  cases hnode : graph.node? id with
  | none => rfl
  | some node =>
      have hoperands := hagree.agreeOn id hid node hnode
      cases hhandler : pass.registry.handler? node.kind with
      | none => simp only [hhandler]
      | some handler => cases handler with
        | elided => simp only [hhandler, checkOperands_congr hoperands]
        | rule rule =>
            obtain ⟨kind, hrule⟩ := hbuiltin _ _ hhandler
            simp only [hhandler, Rule.builtin?_congr hrule hoperands]

/-- A node that is lowered is lowered to the same in a graph that grew. -/
theorem runNode_eq_ok_of_extends (hgraph : graph.Extends graph')
    (horacle : ∀ value range, pass.oracle value = some range → oracle' value = some range)
    {record? : Option Record} (h : pass.runNode graph id = .ok record?) :
    { pass with oracle := oracle', workers := workers' : Pass }.runNode graph' id =
      .ok record? := by
  have hextends : (graph.context pass.oracle).Extends (graph'.context oracle') :=
    { value?_eq := hgraph.value?_eq, range?_eq := horacle }
  rw [runNode_eq_ok] at h ⊢
  obtain ⟨node, hnode, helided | ⟨rule, record, hrule, hrecord, rfl⟩⟩ := h
  · obtain ⟨hhandler, hranges, rfl⟩ := helided
    refine ⟨node, hgraph.node?_eq id node hnode, .inl ⟨hhandler, fun value hvalue => ?_, rfl⟩⟩
    obtain ⟨range, hrange⟩ := Option.isSome_iff_exists.1 (hranges value hvalue)
    exact Option.isSome_of_eq_some (horacle value range hrange)
  · obtain ⟨kind, hbuiltin⟩ := hbuiltin _ _ hrule
    refine ⟨node, hgraph.node?_eq id node hnode, .inr ⟨rule, record, hrule, ?_, rfl⟩⟩
    exact Rule.builtin?_eq_ok_of_extends hbuiltin hextends hrecord

end

/-- **Lowering is local.** Over a registry of rules of the library, a schedule ends alike, in the
    same program, the same diagnostic or the same fault, for any two graphs with their allocations
    that agree on the scheduled nodes and on the values that these mention, whatever the order of
    the workers. A program that is made of a graph is also made of every graph that comes of it by
    further insertions and of every allocation that adds to the first. -/
theorem run_depends_on_operands (pass : Pass) (hbuiltin : pass.registry.IsBuiltin) (graph : Graph)
    (schedule : List NodeId) (oracle' : Oracle) (workers' : Workers) :
    (∀ graph', graph.AgreeFor schedule graph' pass.oracle oracle' →
      pass.run graph schedule =
        { pass with oracle := oracle', workers := workers' : Pass }.run graph' schedule) ∧
    ∀ insertions graph' issued, graph.run insertions = .ok (graph', issued) →
      (∀ value range, pass.oracle value = some range → oracle' value = some range) →
      ∀ program, pass.run graph schedule = .ok program →
        { pass with oracle := oracle', workers := workers' : Pass }.run graph' schedule =
          .ok program := by
  refine ⟨fun graph' hagree => ?_, fun insertions graph' issued hinsertions horacle program h => ?_⟩
  · refine run_congr ?_ fun id hid => runNode_congr hbuiltin oracle' workers' hagree hid
    rfl
  · have hextends := Graph.extends_run hinsertions
    obtain ⟨lowered, hlowered, -⟩ := run_eq_ok.1 h
    rw [runNodes_eq_ok] at hlowered
    rw [← h, eq_comm]
    -- Every node of the schedule was lowered, so none of them can tell that the graph grew.
    refine run_congr ?_ fun id hid => ?_
    · rfl
    have hmem : pass.runNode graph id ∈ schedule.map (pass.runNode graph) := List.mem_map_of_mem hid
    rw [hlowered] at hmem
    obtain ⟨record?, -, hok⟩ := List.mem_map.1 hmem
    rw [← hok, runNode_eq_ok_of_extends hbuiltin oracle' workers' hextends horacle hok.symm]

/-- A graph of two softmaxes in a row, on values with a given name. -/
def softmaxChain (name : String) : Graph where
  values := Array.replicate 3 { name, shape := [2, 3], elementType := .float32 }
  nodes := #[{ name := none, operator := .softmax { input := 0, output := 1 } },
    { name := none, operator := .softmax { input := 1, output := 2 } }]

/-- A pass on workers, with an allocation of the first few values. -/
def chainPass (count : Nat) : Pass where
  registry := .standard
  oracle value :=
    if value.index < count then
      some { region := .data, start := .ofNat (24 * value.index), size := 24 }
    else none
  settings := { parallel := true }

/-- Other names, another order of the workers and a later node make no difference. -/
theorem run_depends_on_operands_chain :
    let schedule : List NodeId := [1, 0]
    let later : List Insertion :=
      [.value { name := none, shape := [2, 3], elementType := .float32 },
        .node { name := none, operator := .softmax { input := 2, output := 3 } }]
    let workers : Workers :=
      .ofOrder (fun count => (List.range count).reverse) fun _ => List.reverse_perm _
    ∃ program graph' issued, (softmaxChain "x").run later = .ok (graph', issued) ∧
      (chainPass 3).run (softmaxChain "x") schedule = .ok program ∧ program.nodes = schedule ∧
      { chainPass 4 with workers : Pass }.run (softmaxChain "y") schedule = .ok program ∧
      { chainPass 4 with workers : Pass }.run graph' schedule = .ok program := by
  intro schedule later workers
  have hagree : (softmaxChain "x").AgreeFor schedule (softmaxChain "y") (chainPass 3).oracle
      (chainPass 4).oracle := by
    refine ⟨fun _ _ => rfl, fun id hid node hnode value hvalue => ?_⟩
    simp only [schedule, List.mem_cons, List.not_mem_nil, or_false] at hid
    rcases hid with rfl | rfl <;> cases hnode
    all_goals
      rcases List.mem_cons.1 hvalue with rfl | hvalue
      · exact ⟨rfl, rfl⟩
      · rw [List.mem_singleton.1 hvalue]
        exact ⟨rfl, rfl⟩
  have horacle : ∀ value range, (chainPass 3).oracle value = some range →
      (chainPass 4).oracle value = some range := by
    intro value range h
    by_cases hlt : value.index < 3
    · have h3 : (chainPass 3).oracle value = _ := if_pos hlt
      have h4 : (chainPass 4).oracle value = _ := if_pos (Nat.lt_succ_of_lt hlt)
      rw [h4, ← h, h3]
    · have h3 : (chainPass 3).oracle value = none := if_neg hlt
      rw [h3] at h
      cases h
  obtain ⟨hrenamed, hgrown⟩ :=
    run_depends_on_operands (chainPass 3) Registry.isBuiltin_standard (softmaxChain "x") schedule
      (chainPass 4).oracle workers
  exact ⟨_, _, _, rfl, rfl, rfl, hrenamed _ hagree, hgrown later _ _ rfl horacle _ rfl⟩

end Pass

end TensorLowering
