import TensorLowering.Proofs.Resolution

set_option autoImplicit false

/-! # Programs without the records of some kinds

A node of an elided kind makes no record, but each of its operands has to have a range all the same.
Every rule of the library asks for the ranges of all operands before it makes a record, so that a
node which the standard registry lowers can as well be elided. To elide more kinds therefore takes
the records of their nodes out of a program and does nothing else to it (`Pass.run_elide`). -/

namespace TensorLowering

/-- Whether an identifier names a node of one of the kinds. -/
def Graph.hasKindIn (graph : Graph) (kinds : List Operator.Kind) (id : NodeId) : Bool :=
  (graph.node? id).any fun node => node.kind ∈ kinds

/-- The steps of a program that are not of nodes of the kinds. -/
def Program.without (program : Program) (graph : Graph) (kinds : List Operator.Kind) : Program where
  steps := program.steps.filter fun step => !graph.hasKindIn kinds step.node

namespace Pass

section

variable {pass eliding : Pass} (hstandard : pass.registry = .standard)
  {kinds : List Operator.Kind}
  (hregistry : eliding.registry = Registry.standard.change (kinds.map .elide))
  (horacle : eliding.oracle = pass.oracle) {graph : Graph} {id : NodeId} {record? : Option Record}

include hstandard hregistry horacle

/-- A node that is lowered is lowered to nothing where its kind is elided, and otherwise as
    before. -/
theorem runNode_elide (h : pass.runNode graph id = .ok record?) :
    eliding.runNode graph id = .ok (if graph.hasKindIn kinds id then none else record?) := by
  obtain ⟨node, hnode, hranges, -⟩ := operands_of_runNode hstandard h
  have hhandler := Registry.handler?_change_elide .standard kinds node.kind
  rw [← hregistry] at hhandler
  have hkind : graph.hasKindIn kinds id = decide (node.kind ∈ kinds) := by
    rw [Graph.hasKindIn, hnode, Option.any_some]
  rw [hkind]
  by_cases hmem : node.kind ∈ kinds
  · rw [if_pos hmem] at hhandler
    simp only [hmem, decide_true, if_true]
    exact runNode_eq_ok.2 ⟨node, hnode, .inl ⟨hhandler, horacle ▸ hranges, rfl⟩⟩
  · rw [if_neg hmem, ← hstandard] at hhandler
    simp only [hmem, decide_false, Bool.false_eq_true, if_false]
    rw [← h]
    simp only [runNode, hnode, hhandler, horacle]

/-- Of a node that is lowered the step is kept unless its kind is elided. -/
theorem step?_elide (h : pass.runNode graph id = .ok record?) :
    eliding.step? graph id =
      (pass.step? graph id).filter fun step => !graph.hasKindIn kinds step.node := by
  rw [step?, step?, runNode_elide hstandard hregistry horacle h, h]
  cases record? with
  | none => simp [Outcome.toOption]
  | some record =>
      cases hkind : graph.hasKindIn kinds id <;> simp [Outcome.toOption, Option.filter_some, hkind]

end

/-- **Eliding kinds only deletes their records.** If a schedule is lowered over the standard
    registry, it is lowered as well where any more kinds are elided, in whatever order and however
    often. The program has lost the steps of the nodes of these kinds; its other steps are the same
    and in the same order. The workers may complete the nodes in another order. -/
theorem run_elide (oracle : Oracle) (settings : Settings) (workers workers' : Workers)
    (graph : Graph) (schedule : List NodeId) (kinds : List Operator.Kind) (program : Program)
    (h : run { registry := .standard, oracle, settings, workers } graph schedule = .ok program) :
    run { registry := Registry.standard.change (kinds.map .elide), oracle, settings,
          workers := workers' } graph schedule = .ok (program.without graph kinds) := by
  let pass : Pass := { registry := .standard, oracle, settings, workers }
  let eliding : Pass :=
    { registry := Registry.standard.change (kinds.map .elide), oracle, settings,
      workers := workers' }
  have hstandard : pass.registry = .standard := rfl
  have hregistry : eliding.registry = Registry.standard.change (kinds.map .elide) := rfl
  have horacle : eliding.oracle = pass.oracle := rfl
  have hlowered : ∀ id ∈ schedule, ∃ record?, pass.runNode graph id = .ok record? :=
    exists_run_eq_ok.1 ⟨program, h⟩
  obtain ⟨program', h'⟩ : ∃ program', eliding.run graph schedule = .ok program' := by
    refine exists_run_eq_ok.2 fun id hid => ?_
    obtain ⟨record?, hrecord⟩ := hlowered id hid
    exact ⟨_, runNode_elide hstandard hregistry horacle hrecord⟩
  have hsteps : program'.steps = (program.without graph kinds).steps := by
    rw [steps_of_run h', Program.without, steps_of_run h, List.filter_filterMap]
    refine List.filterMap_congr fun id hid => ?_
    obtain ⟨record?, hrecord⟩ := hlowered id hid
    exact step?_elide hstandard hregistry horacle hrecord
  rw [← Program.mk.injEq] at hsteps
  exact h'.trans (congrArg Outcome.ok hsteps)

/-- Without the product, which is elided twice, and the inputs, which are elided anyway, only the
    concatenation is left. -/
theorem run_elide_product :
    let schedule : List NodeId := [2, 0, 3, 1, 2]
    let kinds : List Operator.Kind := [.matMul, .input, .matMul]
    let eliding : Pass :=
      { standardPass with registry := Registry.standard.change (kinds.map .elide) }
    ∃ program, standardPass.run squareGraph schedule = .ok program ∧ program.nodes = [2, 3, 2] ∧
      eliding.run squareGraph schedule = .ok (program.without squareGraph kinds) ∧
      (program.without squareGraph kinds).nodes = [3] := by
  intro schedule kinds eliding
  have helided := run_elide standardPass.oracle standardPass.settings standardPass.workers
    standardPass.workers squareGraph schedule kinds _ rfl
  exact ⟨_, rfl, rfl, helided, rfl⟩

end Pass

end TensorLowering
