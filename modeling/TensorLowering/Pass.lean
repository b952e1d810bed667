import TensorLowering.Diagnostic
import TensorLowering.Program
import TensorLowering.Registry
import TensorLowering.Settings
import TensorLowering.Workers

set_option autoImplicit false

/-! # The lowering pass

The pass lowers the nodes of a schedule to a program. Each node is lowered on its own (`runNode`),
either one after another, which stops at the first node that cannot be lowered, or on workers, which
do not stop there; of several failures that of the earliest position is reported. -/

namespace TensorLowering

/-- What a pass works with. -/
structure Pass where
  registry : Registry
  oracle : Oracle
  settings : Settings := {}
  workers : Workers := .inOrder

namespace Pass

/-- Checks that every operand of an elided operator has a range. -/
def checkOperands (context : Context) (op : Operator) : Outcome RuleError Unit :=
  op.operands.forM fun operand => do
    let _ ← context.range operand

/-- The record of a node, or none if its kind is elided. -/
def runNode (pass : Pass) (graph : Graph) (id : NodeId) : Outcome Diagnostic (Option Record) :=
  match graph.node? id with
  | none => .error (.invalidNode id)
  | some node =>
      let context := graph.context pass.oracle
      match pass.registry.handler? node.kind with
      | none => .error (.ofUnsupported id node)
      | some .elided =>
          (checkOperands context node.operator >>= fun _ => pure none).mapError (.ofRefused id node)
      | some (.rule rule) => (some <$> rule node.operator context).mapError (.ofRefused id node)

/-- The records of the nodes of a schedule. -/
def runNodes (pass : Pass) (graph : Graph) (schedule : List NodeId) :
    Outcome Diagnostic (List (Option Record)) :=
  if pass.settings.parallel then pass.workers.mapM (pass.runNode graph) schedule
  else schedule.mapM (pass.runNode graph)

/-- The program of a schedule. -/
def run (pass : Pass) (graph : Graph) (schedule : List NodeId) :
    Outcome Diagnostic Program :=
  Program.ofLowered schedule <$> pass.runNodes graph schedule

/-- The program of a graph, whose nodes are scheduled in the order of insertion. -/
def runGraph (pass : Pass) (graph : Graph) : Outcome Diagnostic Program :=
  pass.run graph graph.nodeIds

/-! ## What a run reports -/

/-- The nodes that are lowered or elided in a run, in the order in which that happens. -/
def reached (pass : Pass) (graph : Graph) (schedule : List NodeId) : List NodeId :=
  if pass.settings.parallel then
    (pass.workers.completed id schedule).map fun result => result.2
  else schedule.takeWhile fun id => (pass.runNode graph id).isOk

/-- What there is to report about one node. -/
def nodeEvent? (pass : Pass) (graph : Graph) (id : NodeId) : Option LogEvent := do
  let node ← graph.node? id
  match ← (pass.runNode graph id).toOption with
  | none => return .elided id node
  | some record => return .lowered id node record

/-- What there is to report about a run that does not fault. -/
def events (pass : Pass) (graph : Graph) (schedule : List NodeId) : List LogEvent :=
  (pass.reached graph schedule).filterMap (pass.nodeEvent? graph) ++
    match pass.run graph schedule with
    | .ok program =>
        if pass.settings.verbose then
          [.finished schedule.length program.size pass.settings.parallel]
        else []
    | _ => []

/-! ## Operands of elided operators -/

theorem checkOperands_eq_ok {context : Context} {op : Operator} {u : Unit} :
    checkOperands context op = .ok u ↔ ∀ value ∈ op.operands, (context.range? value).isSome := by
  unfold checkOperands
  rw [Outcome.forM_eq_ok]
  simp [Outcome.bind_eq_ok, Option.isSome_iff_exists]

/-- The first operand without a range is the one reported. -/
theorem checkOperands_eq_error {context : Context} {op : Operator} {e : RuleError} :
    checkOperands context op = .error e ↔
      ∃ before value after, op.operands = before ++ value :: after ∧
        (∀ earlier ∈ before, (context.range? earlier).isSome) ∧
        context.range? value = none ∧ RuleError.unresolvedAllocation value = e := by
  unfold checkOperands
  rw [Outcome.forM_eq_error]
  simp [Outcome.bind_eq_ok, Outcome.bind_eq_error, Option.isSome_iff_exists]

@[simp] theorem checkOperands_ne_fault {context : Context} {op : Operator} {t : Fault} :
    checkOperands context op ≠ .fault t := by
  refine Outcome.forM_ne_fault fun value _ => ?_
  simp [Outcome.bind_eq_fault]

/-! ## How a node is lowered -/

/-- A node is lowered if it is elided and each of its operands has a range, and then to nothing, or
    if a rule makes a record of it, and then to that. -/
theorem runNode_eq_ok {pass : Pass} {graph : Graph} {id : NodeId} {record? : Option Record} :
    pass.runNode graph id = .ok record? ↔ ∃ node, graph.node? id = some node ∧
      ((pass.registry.handler? node.kind = some .elided ∧
          (∀ value ∈ node.operator.operands, (pass.oracle value).isSome) ∧ record? = none) ∨
        ∃ rule record, pass.registry.handler? node.kind = some (.rule rule) ∧
          rule node.operator (graph.context pass.oracle) = .ok record ∧ record? = some record) := by
  unfold runNode
  cases graph.node? id with
  | none => simp
  | some node =>
      cases hhandler : pass.registry.handler? node.kind with
      | none => simp [hhandler]
      | some handler => cases handler with
        | elided =>
            simp only [hhandler, Outcome.mapError_eq_ok, Outcome.bind_eq_ok, checkOperands_eq_ok]
            constructor
            · rintro ⟨_, hranges, hnone⟩
              exact ⟨node, rfl, .inl ⟨hhandler, hranges, (Outcome.ok.inj hnone).symm⟩⟩
            · rintro ⟨_, ⟨⟩, ⟨-, hranges, rfl⟩ | ⟨rule, record, hrule, -⟩⟩
              · exact ⟨(), hranges, rfl⟩
              · rw [hhandler] at hrule
                cases hrule
        | rule own =>
            simp only [hhandler, Outcome.mapError_eq_ok, Outcome.map_eq_ok]
            constructor
            · rintro ⟨record, hrecord, rfl⟩
              exact ⟨node, rfl, .inr ⟨own, record, hhandler, hrecord, rfl⟩⟩
            · rintro ⟨_, ⟨⟩, ⟨helided, -⟩ | ⟨rule, record, hrule, hrecord, rfl⟩⟩
              · rw [hhandler] at helided
                cases helided
              · rw [hhandler] at hrule
                cases hrule
                exact ⟨record, hrecord, rfl⟩

/-- Over the standard registry the rule of its operator decides what becomes of a node. If there is
    none, the node is elided once each of its operands was seen to have a range. -/
theorem runNode_standard {pass : Pass} (hstandard : pass.registry = .standard) {graph : Graph}
    {id : NodeId} {node : Node} (hnode : graph.node? id = some node) :
    pass.runNode graph id = Outcome.mapError (.ofRefused id node)
      (match node.operator.lower? with
      | some lower => some <$> lower (graph.context pass.oracle)
      | none => checkOperands (graph.context pass.oracle) node.operator >>= fun _ => pure none) := by
  have hcomputed := node.operator.isSome_lower?
  unfold runNode
  simp only [hnode, hstandard, Registry.handler?_standard, Node.kind, ← hcomputed]
  cases hlower : node.operator.lower? with
  | none => rfl
  | some lower =>
      have hown := Rule.ofKind_kind hlower (graph.context pass.oracle)
      simp only [Option.isSome_some, if_true, hown]

/-- The step of a program that a node is lowered to, if it is lowered to one. -/
def step? (pass : Pass) (graph : Graph) (id : NodeId) : Option ProgramStep :=
  (pass.runNode graph id).toOption.join.map fun record => { node := id, record }

theorem step?_eq_some {pass : Pass} {graph : Graph} {id : NodeId} {step : ProgramStep} :
    pass.step? graph id = some step ↔
      step.node = id ∧ pass.runNode graph id = .ok (some step.record) := by
  unfold step?
  rw [Option.map_eq_some_iff]
  simp only [Option.join_eq_some_iff, Outcome.toOption_eq_some]
  constructor
  · rintro ⟨record, hrecord, rfl⟩
    exact ⟨rfl, hrecord⟩
  · rintro ⟨rfl, hrecord⟩
    exact ⟨step.record, hrecord, rfl⟩

/-! ## How a schedule is lowered -/

theorem run_eq_ok {pass : Pass} {graph : Graph} {schedule : List NodeId}
    {program : Program} :
    pass.run graph schedule = .ok program ↔
      ∃ lowered, pass.runNodes graph schedule = .ok lowered ∧
        Program.ofLowered schedule lowered = program :=
  Outcome.map_eq_ok

/-- A run ends in a diagnostic exactly if the nodes of its schedule do. -/
theorem run_eq_error {pass : Pass} {graph : Graph} {schedule : List NodeId}
    {diagnostic : Diagnostic} :
    pass.run graph schedule = .error diagnostic ↔
      pass.runNodes graph schedule = .error diagnostic :=
  Outcome.map_eq_error

/-- One after another, the first node that is not lowered decides. -/
theorem runNodes_serial {pass : Pass} (h : pass.settings.parallel = false) (graph : Graph)
    (schedule : List NodeId) :
    pass.runNodes graph schedule = schedule.mapM (pass.runNode graph) := by
  simp [runNodes, h]

/-- On workers, the outcomes of all nodes are settled together. -/
theorem runNodes_parallel {pass : Pass} (h : pass.settings.parallel = true) (graph : Graph)
    (schedule : List NodeId) :
    pass.runNodes graph schedule = Workers.settle (schedule.map (pass.runNode graph)) := by
  simp [runNodes, h, Workers.mapM_eq_settle]

/-- In either mode, the nodes of a schedule are lowered exactly if each of them is. -/
theorem runNodes_eq_ok {pass : Pass} {graph : Graph} {schedule : List NodeId}
    {lowered : List (Option Record)} :
    pass.runNodes graph schedule = .ok lowered ↔
      schedule.map (pass.runNode graph) = lowered.map .ok := by
  cases hmode : pass.settings.parallel with
  | false => rw [runNodes_serial hmode, Outcome.mapM_eq_ok]
  | true => rw [runNodes_parallel hmode, Workers.settle_eq_ok]

/-- In either mode, a schedule is lowered exactly if each of its nodes is. -/
theorem exists_run_eq_ok {pass : Pass} {graph : Graph} {schedule : List NodeId} :
    (∃ program, pass.run graph schedule = .ok program) ↔
      ∀ id ∈ schedule, ∃ record?, pass.runNode graph id = .ok record? := by
  rw [← Outcome.exists_mapM_eq_ok]
  simp only [run_eq_ok, runNodes_eq_ok, Outcome.mapM_eq_ok]
  exact ⟨fun ⟨_, lowered, h, _⟩ => ⟨lowered, h⟩, fun ⟨lowered, h⟩ => ⟨_, lowered, h, rfl⟩⟩

/-- In a schedule that is lowered each node is. -/
theorem exists_runNode_of_run {pass : Pass} {graph : Graph} {schedule : List NodeId}
    {program : Program} (h : pass.run graph schedule = .ok program) {id : NodeId}
    (hid : id ∈ schedule) : ∃ record?, pass.runNode graph id = .ok record? :=
  exists_run_eq_ok.1 ⟨program, h⟩ id hid

/-- A program has the steps of the nodes of its schedule, in their order. -/
theorem steps_of_run {pass : Pass} {graph : Graph} {schedule : List NodeId} {program : Program}
    (h : pass.run graph schedule = .ok program) :
    program.steps = schedule.filterMap (pass.step? graph) := by
  obtain ⟨lowered, hlowered, rfl⟩ := run_eq_ok.1 h
  rw [runNodes_eq_ok] at hlowered
  clear h
  -- By induction on the schedule, of which each node takes one of the results.
  induction schedule generalizing lowered with
  | nil => cases lowered with
    | nil => rfl
    | cons record? lowered => cases hlowered
  | cons id schedule ih => cases lowered with
    | nil => cases hlowered
    | cons record? lowered =>
        rw [List.map_cons, List.map_cons, List.cons.injEq] at hlowered
        obtain ⟨hid, hrest⟩ := hlowered
        rw [List.filterMap_cons]
        cases record? with
        | none => rw [step?, hid, Program.steps_ofLowered_cons_none, ih lowered hrest]; rfl
        | some record => rw [step?, hid, Program.steps_ofLowered_cons_some, ih lowered hrest]; rfl

/-- A run that fails reports one of the nodes of its schedule. -/
theorem exists_runNode_of_run_eq_error {pass : Pass} {graph : Graph} {schedule : List NodeId}
    {diagnostic : Diagnostic} (h : pass.run graph schedule = .error diagnostic) :
    ∃ id ∈ schedule, pass.runNode graph id = .error diagnostic := by
  rw [run_eq_error] at h
  cases hmode : pass.settings.parallel with
  | false =>
      rw [runNodes_serial hmode] at h
      obtain ⟨before, id, after, rfl, -, hid⟩ := Outcome.mapM_eq_error.1 h
      exact ⟨id, by simp, hid⟩
  | true =>
      rw [runNodes_parallel hmode] at h
      exact List.mem_map.1 (Workers.mem_of_settle_eq_error h)

/-- What becomes of the nodes decides how a schedule ends; the workers have no part in it. -/
theorem run_congr {pass pass' : Pass} (hsettings : pass.settings = pass'.settings)
    {graph graph' : Graph} {schedule : List NodeId}
    (h : ∀ id ∈ schedule, pass.runNode graph id = pass'.runNode graph' id) :
    pass.run graph schedule = pass'.run graph' schedule := by
  unfold run
  cases hmode : pass.settings.parallel with
  | false =>
      have hmode' : pass'.settings.parallel = false := by rw [← hsettings, hmode]
      rw [runNodes_serial hmode, runNodes_serial hmode', Outcome.mapM_congr h]
  | true =>
      have hmode' : pass'.settings.parallel = true := by rw [← hsettings, hmode]
      rw [runNodes_parallel hmode, runNodes_parallel hmode', List.map_congr_left h]

end Pass

end TensorLowering
