import TensorLowering.Pass

set_option autoImplicit false

/-! # How the lowering of a schedule ends

`Lowers` and `Fails` say what becomes of a node on its own, from the changes by which the registry
was built, the graph and the oracle; `Emits` says what a schedule of nodes that lower leaves behind.
Where no rule faults, both modes of a pass end as these relations say, whatever the order in which
the workers complete nodes (`Pass.run_follows_schedule`). Where a rule may fault, the two modes end
alike except in one case: a fault of a node that a run of one node after another does not reach
(`Pass.parallel_run_eq_serial_run_iff`). -/

namespace TensorLowering

/-! ## The entry of a kind -/

namespace Registry

/-- The last of the changes to a kind sets this entry. -/
def LastSets (changes : List Change) (kind : Operator.Kind) (handler : Handler) : Prop :=
  ∃ earlier step later, changes = earlier ++ step :: later ∧ step.kind = kind ∧
    step.handler = handler ∧ ∀ other ∈ later, other.kind ≠ kind

/-- The entry of a kind is the one that the last change to it sets. -/
theorem handler?_eq_some_iff_lastSets {changes : List Change} {kind : Operator.Kind}
    {handler : Handler} :
    (empty.change changes).handler? kind = some handler ↔ LastSets changes kind handler := by
  rw [handler?_change]
  constructor
  · intro h
    cases hfind : changes.reverse.find? (·.kind = kind) with
    | none => rw [hfind] at h; cases h
    | some step =>
        rw [hfind] at h
        cases h
        obtain ⟨hkind, later, earlier, heq, hlater⟩ := List.find?_eq_some_iff_append.1 hfind
        refine ⟨earlier.reverse, step, later.reverse, ?_, by simpa using hkind, rfl, ?_⟩
        · have := congrArg List.reverse heq
          simpa using this
        · intro other hother
          simpa using hlater other (List.mem_reverse.1 hother)
  · rintro ⟨earlier, step, later, rfl, hkind, rfl, hlater⟩
    have hfind : (earlier ++ step :: later).reverse.find? (·.kind = kind) = some step := by
      refine List.find?_eq_some_iff_append.2
        ⟨by simpa using hkind, later.reverse, earlier.reverse, by simp, fun other hother => ?_⟩
      simpa using hlater other (List.mem_reverse.1 hother)
    rw [hfind]

/-- A kind that no change sets has no entry. -/
theorem handler?_eq_none_iff {changes : List Change} {kind : Operator.Kind} :
    (empty.change changes).handler? kind = none ↔ ∀ step ∈ changes, step.kind ≠ kind := by
  rw [handler?_change]
  constructor
  · intro h step hstep hkind
    cases hfind : changes.reverse.find? (·.kind = kind) with
    | none =>
        have := List.find?_eq_none.1 hfind step (List.mem_reverse.2 hstep)
        exact this (by simpa using hkind)
    | some found => rw [hfind] at h; cases h
  · intro h
    have hfind : changes.reverse.find? (·.kind = kind) = none := by
      refine List.find?_eq_none.2 fun step hstep => ?_
      simpa using h step (List.mem_reverse.1 hstep)
    rw [hfind]
    rfl

end Registry

/-! ## What becomes of nodes -/

section

variable (changes : List Registry.Change) (oracle : Oracle) (graph : Graph)

/-- The node lowers on its own, to a record or to nothing. -/
inductive Lowers : NodeId → Option Record → Prop
  /-- Its kind is elided, and each of its values has a range. -/
  | elided {id : NodeId} {node : Node} (hnode : graph.node? id = some node)
      (hlast : Registry.LastSets changes node.kind .elided)
      (hranges : ∀ value ∈ node.operator.inputs ++ node.operator.outputs, (oracle value).isSome) :
      Lowers id none
  /-- The last rule for its kind makes the record. -/
  | record {id : NodeId} {node : Node} {rule : Rule} {record : Record}
      (hnode : graph.node? id = some node)
      (hlast : Registry.LastSets changes node.kind (.rule rule))
      (hrule : rule node.operator (graph.context oracle) = .ok record) :
      Lowers id (some record)

/-- The node does not lower, for the reason that the diagnostic gives. -/
inductive Fails : NodeId → Diagnostic → Prop
  /-- It does not exist. -/
  | missing {id : NodeId} (hnode : graph.node? id = none) : Fails id (.invalidNode id)
  /-- Its kind is not in the registry. -/
  | unsupported {id : NodeId} {node : Node} (hnode : graph.node? id = some node)
      (hkind : ∀ step ∈ changes, step.kind ≠ node.kind) :
      Fails id (.unsupported id node.name node.kind)
  /-- Its kind is elided, and the value is the first of its values without a range. -/
  | unresolved {id : NodeId} {node : Node} {before after : List ValueId} {value : ValueId}
      (hnode : graph.node? id = some node)
      (hlast : Registry.LastSets changes node.kind .elided)
      (hvalues : node.operator.inputs ++ node.operator.outputs = before ++ value :: after)
      (hbefore : ∀ earlier ∈ before, (oracle earlier).isSome) (hvalue : oracle value = none) :
      Fails id (.refused id node.name node.kind (.unresolvedAllocation value))
  /-- The last rule for its kind refuses it. -/
  | refused {id : NodeId} {node : Node} {rule : Rule} {cause : RuleError}
      (hnode : graph.node? id = some node)
      (hlast : Registry.LastSets changes node.kind (.rule rule))
      (hrule : rule node.operator (graph.context oracle) = .error cause) :
      Fails id (.refused id node.name node.kind cause)

/-- What the nodes of a schedule leave behind: a record for each occurrence of a node that is not
    elided, in the order of the schedule. -/
inductive Emits : List NodeId → List (NodeId × Record) → Prop
  | nil : Emits [] []
  | elided {id : NodeId} {ids : List NodeId} {emitted : List (NodeId × Record)}
      (h : Lowers changes oracle graph id none) (hrest : Emits ids emitted) :
      Emits (id :: ids) emitted
  | record {id : NodeId} {record : Record} {ids : List NodeId}
      {emitted : List (NodeId × Record)} (h : Lowers changes oracle graph id (some record))
      (hrest : Emits ids emitted) : Emits (id :: ids) ((id, record) :: emitted)

/-- No rule that a node of the schedule is lowered by faults. -/
def Faultless (schedule : List NodeId) : Prop :=
  ∀ id ∈ schedule, ∀ node, graph.node? id = some node →
    ∀ rule, Registry.LastSets changes node.kind (.rule rule) →
      ∀ t, rule node.operator (graph.context oracle) ≠ .fault t

end

namespace Fails

variable {changes : List Registry.Change} {oracle : Oracle} {graph : Graph} {id : NodeId}
  {diagnostic : Diagnostic}

/-- A diagnostic is about the node that does not lower. -/
theorem node_eq (h : Fails changes oracle graph id diagnostic) : diagnostic.node = id := by
  cases h <;> rfl

theorem nodeName?_eq (h : Fails changes oracle graph id diagnostic) :
    diagnostic.nodeName? = (graph.node? id).bind Node.name := by
  cases h with
  | missing hnode => rw [hnode]; rfl
  | unsupported hnode => rw [hnode]; rfl
  | unresolved hnode => rw [hnode]; rfl
  | refused hnode => rw [hnode]; rfl

theorem kind?_eq (h : Fails changes oracle graph id diagnostic) :
    diagnostic.kind? = (graph.node? id).map Node.kind := by
  cases h with
  | missing hnode => rw [hnode]; rfl
  | unsupported hnode => rw [hnode]; rfl
  | unresolved hnode => rw [hnode]; rfl
  | refused hnode => rw [hnode]; rfl

end Fails

/-! ## One node -/

namespace Pass

section

variable {changes : List Registry.Change} {pass : Pass} {graph : Graph} {id : NodeId}

/-- A pass over a registry that was built by changes lowers a node exactly if it lowers on its
    own. -/
theorem runNode_eq_ok_iff_lowers (hbuilt : pass.registry = Registry.empty.change changes)
    {record? : Option Record} :
    pass.runNode graph id = .ok record? ↔ Lowers changes pass.oracle graph id record? := by
  constructor
  · intro h
    unfold runNode at h
    split at h
    · cases h
    · next node hnode =>
        simp only at h
        split at h
        · cases h
        · next hhandler =>
            rw [hbuilt, Registry.handler?_eq_some_iff_lastSets] at hhandler
            rw [Outcome.mapError_eq_ok, Outcome.bind_eq_ok] at h
            obtain ⟨_, hcheck, h⟩ := h
            cases h
            exact .elided hnode hhandler (checkOperands_eq_ok.1 hcheck)
        · next rule hhandler =>
            rw [hbuilt, Registry.handler?_eq_some_iff_lastSets] at hhandler
            rw [Outcome.mapError_eq_ok, Outcome.map_eq_ok] at h
            obtain ⟨record, hrule, rfl⟩ := h
            exact .record hnode hhandler hrule
  · intro h
    cases h with
    | @elided node hnode hlast hranges =>
        have hcheck : checkOperands (graph.context pass.oracle) node.operator = .ok () :=
          checkOperands_eq_ok.2 hranges
        rw [← Registry.handler?_eq_some_iff_lastSets, ← hbuilt] at hlast
        simp only [runNode, hnode, hlast, hcheck]
        rfl
    | @record node rule record hnode hlast hrule =>
        rw [← Registry.handler?_eq_some_iff_lastSets, ← hbuilt] at hlast
        simp only [runNode, hnode, hlast, hrule]
        rfl

/-- A node that fails on its own fails in a pass, with the same diagnostic. -/
theorem runNode_eq_error_iff_fails (hbuilt : pass.registry = Registry.empty.change changes)
    {diagnostic : Diagnostic} :
    pass.runNode graph id = .error diagnostic ↔
      Fails changes pass.oracle graph id diagnostic := by
  constructor
  · intro h
    unfold runNode at h
    split at h
    · next hnode =>
        cases h
        exact .missing hnode
    · next node hnode =>
        simp only at h
        split at h
        · next hhandler =>
            rw [hbuilt, Registry.handler?_eq_none_iff] at hhandler
            cases h
            exact .unsupported hnode hhandler
        · next hhandler =>
            rw [hbuilt, Registry.handler?_eq_some_iff_lastSets] at hhandler
            rw [Outcome.mapError_eq_error] at h
            obtain ⟨cause, hcause, rfl⟩ := h
            rw [Outcome.bind_eq_error] at hcause
            rcases hcause with hcheck | ⟨_, -, hpure⟩
            · obtain ⟨before, value, after, hvalues, hbefore, hvalue, rfl⟩ :=
                checkOperands_eq_error.1 hcheck
              exact .unresolved hnode hhandler hvalues hbefore hvalue
            · cases hpure
        · next rule hhandler =>
            rw [hbuilt, Registry.handler?_eq_some_iff_lastSets] at hhandler
            rw [Outcome.mapError_eq_error] at h
            obtain ⟨cause, hcause, rfl⟩ := h
            rw [Outcome.map_eq_error] at hcause
            exact .refused hnode hhandler hcause
  · intro h
    cases h with
    | missing hnode => simp only [runNode, hnode]
    | unsupported hnode hkind =>
        rw [← Registry.handler?_eq_none_iff, ← hbuilt] at hkind
        simp only [runNode, hnode, hkind]
        rfl
    | @unresolved node before after value hnode hlast hvalues hbefore hvalue =>
        have hcheck : checkOperands (graph.context pass.oracle) node.operator =
            .error (.unresolvedAllocation value) :=
          checkOperands_eq_error.2 ⟨before, value, after, hvalues, hbefore, hvalue, rfl⟩
        rw [← Registry.handler?_eq_some_iff_lastSets, ← hbuilt] at hlast
        simp only [runNode, hnode, hlast, hcheck]
        rfl
    | @refused node rule cause hnode hlast hrule =>
        rw [← Registry.handler?_eq_some_iff_lastSets, ← hbuilt] at hlast
        simp only [runNode, hnode, hlast, hrule]
        rfl

/-- A node of a schedule without faults does not fault in a pass. -/
theorem runNode_ne_fault (hbuilt : pass.registry = Registry.empty.change changes)
    {schedule : List NodeId} (h : Faultless changes pass.oracle graph schedule)
    (hid : id ∈ schedule) (t : Fault) : pass.runNode graph id ≠ .fault t := by
  unfold runNode
  split
  · exact nofun
  · next node hnode =>
      simp only
      split
      · exact nofun
      · rw [ne_eq, Outcome.mapError_eq_fault, Outcome.bind_eq_fault]
        rintro (hcheck | ⟨_, -, hpure⟩)
        · exact checkOperands_ne_fault hcheck
        · cases hpure
      · next rule hhandler =>
          rw [hbuilt, Registry.handler?_eq_some_iff_lastSets] at hhandler
          rw [ne_eq, Outcome.mapError_eq_fault, Outcome.map_eq_fault]
          exact h id hid node hnode rule hhandler t

/-! ## A schedule without faults -/

/-- Without faults both modes do the same. -/
theorem runNodes_eq_mapM {schedule : List NodeId}
    (h : ∀ id ∈ schedule, ∀ t, pass.runNode graph id ≠ .fault t) :
    pass.runNodes graph schedule = schedule.mapM (pass.runNode graph) := by
  unfold runNodes
  split
  · exact Workers.mapM_eq_mapM _ h
  · rfl

/-- The program of nodes that lower is what they emit. -/
theorem emits_ofLowered (hbuilt : pass.registry = Registry.empty.change changes)
    {schedule : List NodeId} {lowered : List (Option Record)}
    (h : schedule.map (pass.runNode graph) = lowered.map .ok) :
    Emits changes pass.oracle graph schedule
      ((Program.ofLowered schedule lowered).nodes.zip
        (Program.ofLowered schedule lowered).records) := by
  rw [Program.zip_nodes_records]
  induction schedule generalizing lowered with
  | nil =>
      cases lowered with
      | nil => exact .nil
      | cons record? lowered => cases h
  | cons id schedule ih =>
      cases lowered with
      | nil => cases h
      | cons record? lowered =>
          rw [List.map_cons, List.map_cons, List.cons.injEq] at h
          obtain ⟨hid, hrest⟩ := h
          rw [runNode_eq_ok_iff_lowers hbuilt] at hid
          cases record? with
          | none =>
              rw [Program.steps_ofLowered_cons_none]
              exact .elided hid (ih hrest)
          | some record =>
              rw [Program.steps_ofLowered_cons_some, List.map_cons]
              exact .record hid (ih hrest)

end

/-- **The run of a schedule without faults.** A pass over a registry that was built by any changes,
    in either mode and with workers of any order, ends with a program exactly if every node of the
    schedule lowers on its own. The program then has what the nodes emit. Otherwise the pass ends
    with the diagnostic of the earliest position whose node does not lower. -/
theorem run_follows_schedule (changes : List Registry.Change) (pass : Pass)
    (hbuilt : pass.registry = Registry.empty.change changes) (graph : Graph)
    (schedule : List NodeId) (hfaultless : Faultless changes pass.oracle graph schedule) :
    ((∃ program, pass.run graph schedule = .ok program) ↔
      ∀ id ∈ schedule, ∃ record?, Lowers changes pass.oracle graph id record?) ∧
    (∀ program, pass.run graph schedule = .ok program →
      program.nodes.length = program.records.length ∧
        Emits changes pass.oracle graph schedule (program.nodes.zip program.records)) ∧
    ∀ before id after, schedule = before ++ id :: after →
      (∀ earlier ∈ before, ∃ record?, Lowers changes pass.oracle graph earlier record?) →
      (¬∃ record?, Lowers changes pass.oracle graph id record?) →
      ∃ diagnostic, pass.run graph schedule = .error diagnostic ∧
        Fails changes pass.oracle graph id diagnostic ∧ diagnostic.node = id ∧
        diagnostic.nodeName? = (graph.node? id).bind Node.name ∧
        diagnostic.kind? = (graph.node? id).map Node.kind := by
  have hfault : ∀ id ∈ schedule, ∀ t, pass.runNode graph id ≠ .fault t :=
    fun id hid => runNode_ne_fault hbuilt hfaultless hid
  simp only [run, runNodes_eq_mapM hfault, ← runNode_eq_ok_iff_lowers hbuilt]
  refine ⟨?_, ?_, ?_⟩
  · rw [← Outcome.exists_mapM_eq_ok]
    simp only [Outcome.map_eq_ok]
    exact ⟨fun ⟨_, lowered, h, _⟩ => ⟨lowered, h⟩, fun ⟨lowered, h⟩ => ⟨_, lowered, h, rfl⟩⟩
  · intro program h
    obtain ⟨lowered, hlowered, rfl⟩ := Outcome.map_eq_ok.1 h
    refine ⟨by rw [Program.length_nodes, Program.length_records], ?_⟩
    exact emits_ofLowered hbuilt (Outcome.mapM_eq_ok.1 hlowered)
  · rintro before id after rfl hbefore hid
    cases hend : pass.runNode graph id with
    | ok record? => exact absurd ⟨record?, hend⟩ hid
    | fault t => exact absurd hend (hfault id (by simp) t)
    | error diagnostic =>
        have hfails := (runNode_eq_error_iff_fails hbuilt).1 hend
        rw [Outcome.mapM_append_error hbefore hend]
        exact ⟨diagnostic, rfl, hfails, hfails.node_eq, hfails.nodeName?_eq, hfails.kind?_eq⟩

/-- A graph whose node 1 normalizes the value that node 0 supplies. -/
def softmaxGraph : Graph where
  values := #[{ name := "x", shape := [2, 3], elementType := .float32 },
    { name := none, shape := [2, 3], elementType := .float32 }]
  nodes := #[{ name := "x", operator := .input { output := 0 } },
    { name := none, operator := .softmax { input := 0, output := 1 } }]

/-- A pass on workers that complete the last node first, over a registry whose changes to a kind
    are not all of one sort. -/
def softmaxPass (changes : List Registry.Change) : Pass where
  registry := Registry.empty.change changes
  oracle value := some { region := .data, start := .ofNat (24 * value.index), size := 24 }
  settings := { parallel := true }
  workers := .ofOrder (fun count => (List.range count).reverse) fun _ => List.reverse_perm _

/-- The node that is scheduled twice is recorded twice, by the rule that was registered last. -/
theorem run_follows_schedule_softmax :
    let changes := [.elide .input, .elide .softmax, .register .softmax (Rule.ofKind .softmax)]
    let schedule : List NodeId := [1, 0, 1]
    Faultless changes (softmaxPass changes).oracle softmaxGraph schedule ∧
      ∃ program, (softmaxPass changes).run softmaxGraph schedule = .ok program ∧
        program.nodes = [1, 1] ∧
        Emits changes (softmaxPass changes).oracle softmaxGraph schedule
          (program.nodes.zip program.records) := by
  intro changes schedule
  have hfaultless : Faultless changes (softmaxPass changes).oracle softmaxGraph schedule := by
    intro id hid node hnode rule hlast t
    rw [← Registry.handler?_eq_some_iff_lastSets] at hlast
    simp only [schedule, List.mem_cons, List.not_mem_nil, or_false] at hid
    rcases hid with rfl | rfl | rfl <;> cases hnode <;> cases hlast <;> exact nofun
  obtain ⟨-, hprogram, -⟩ :=
    run_follows_schedule changes (softmaxPass changes) rfl softmaxGraph schedule hfaultless
  exact ⟨hfaultless, _, rfl, rfl, (hprogram _ rfl).2⟩

/-! ## The two modes -/

/-- The first node of the schedule that does not lower fails with a diagnostic, and a node after it
    faults. A run of one node after another does not reach the fault. -/
def HidesFault (pass : Pass) (graph : Graph) (schedule : List NodeId) : Prop :=
  ∃ before id after diagnostic, schedule = before ++ id :: after ∧
    (∀ earlier ∈ before, ∃ record?, pass.runNode graph earlier = .ok record?) ∧
    pass.runNode graph id = .error diagnostic ∧
    ∃ later ∈ after, ∃ t, pass.runNode graph later = .fault t

section

variable {pass : Pass} {graph : Graph} {schedule : List NodeId}

/-- Where no fault is hidden, workers end as nodes do one after another. -/
theorem mapM_workers_of_not_hidesFault (workers : Workers)
    (h : ¬pass.HidesFault graph schedule) :
    workers.mapM (pass.runNode graph) schedule = schedule.mapM (pass.runNode graph) := by
  rcases Outcome.forall_ok_or_first (pass.runNode graph) schedule with
    hall | ⟨before, id, after, rfl, hbefore, hid⟩
  · refine Workers.mapM_eq_mapM _ fun id hid t ht => ?_
    obtain ⟨record?, hok⟩ := hall id hid
    rw [hok] at ht
    cases ht
  · have hearlier : ∀ earlier ∈ before, ∀ t, pass.runNode graph earlier ≠ .fault t := by
      intro earlier hmem t ht
      obtain ⟨record?, hok⟩ := hbefore earlier hmem
      rw [hok] at ht
      cases ht
    cases hend : pass.runNode graph id with
    | ok record? => exact absurd hend (hid record?)
    | fault t =>
        rw [Workers.mapM_eq_fault _ hearlier hend, Outcome.mapM_append_fault hbefore hend]
    | error diagnostic =>
        -- A fault could only come after the error, where it would be hidden.
        refine Workers.mapM_eq_mapM _ fun other hother t ht => ?_
        rcases List.mem_append.1 hother with hmem | hmem
        · exact hearlier other hmem t ht
        · rcases List.mem_cons.1 hmem with rfl | hmem
          · rw [hend] at ht
            cases ht
          · exact h ⟨before, id, after, diagnostic, rfl, hbefore, hend, other, hmem, t, ht⟩

/-- Where a fault is hidden, one after another ends in the diagnostic and workers in a fault. -/
theorem mapM_of_hidesFault (workers : Workers) (h : pass.HidesFault graph schedule) :
    ∃ diagnostic t, schedule.mapM (pass.runNode graph) = .error diagnostic ∧
      workers.mapM (pass.runNode graph) schedule = .fault t := by
  obtain ⟨before, id, after, diagnostic, rfl, hbefore, hend, later, hlater, hfault⟩ := h
  have hmem : later ∈ before ++ id :: after :=
    List.mem_append_right _ (List.mem_cons_of_mem _ hlater)
  obtain ⟨t, ht⟩ := workers.exists_mapM_eq_fault ⟨later, hmem, hfault⟩
  exact ⟨diagnostic, t, Outcome.mapM_append_error hbefore hend, ht⟩

end

/-- **The two modes of a pass.** Whatever the order of the workers, both modes end alike, in the
    same program, the same diagnostic or the same fault, exactly if the schedule hides no fault. If
    it hides one, the run of one node after another ends in a diagnostic and the run on workers in
    a fault. -/
theorem parallel_run_eq_serial_run_iff (registry : Registry) (oracle : Oracle) (verbose : Bool)
    (workers workers' : Workers) (graph : Graph) (schedule : List NodeId) :
    let serial : Pass := { registry, oracle, settings := { verbose, parallel := false }, workers }
    let parallel : Pass :=
      { registry, oracle, settings := { verbose, parallel := true }, workers := workers' }
    (parallel.run graph schedule = serial.run graph schedule ↔
      ¬serial.HidesFault graph schedule) ∧
    (serial.HidesFault graph schedule → ∃ diagnostic t,
      serial.run graph schedule = .error diagnostic ∧ parallel.run graph schedule = .fault t) := by
  intro serial parallel
  have hserial : serial.run graph schedule =
      Program.ofLowered schedule <$> schedule.mapM (serial.runNode graph) := rfl
  -- What becomes of a node depends on neither the settings nor the workers.
  have hparallel : parallel.run graph schedule =
      Program.ofLowered schedule <$> workers'.mapM (serial.runNode graph) schedule := rfl
  have hdiffer : serial.HidesFault graph schedule → ∃ diagnostic t,
      serial.run graph schedule = .error diagnostic ∧
        parallel.run graph schedule = .fault t := by
    intro hhides
    obtain ⟨diagnostic, t, herror, hfault⟩ := mapM_of_hidesFault workers' hhides
    rw [hserial, hparallel, herror, hfault]
    exact ⟨diagnostic, t, rfl, rfl⟩
  refine ⟨⟨fun heq hhides => ?_, fun hnot => ?_⟩, hdiffer⟩
  · obtain ⟨diagnostic, t, herror, hfault⟩ := hdiffer hhides
    rw [herror, hfault] at heq
    cases heq
  · rw [hserial, hparallel, mapM_workers_of_not_hidesFault workers' hnot]

/-- A graph whose only node has more elements than a word counts. -/
def oversizedGraph : Graph where
  values := #[{ name := none, shape := [0x8000000000000000, 2], elementType := .float32 }]
  nodes := #[{
    name := none, operator := .softmax { input := 0, output := 0 } }]

/-- A node that does not exist, before one whose rule faults: only workers reach the fault. -/
theorem parallel_run_ne_serial_run :
    let serial : Pass := { registry := .standard, oracle := fun _ => none }
    let parallel : Pass :=
      { registry := .standard, oracle := fun _ => none, settings := { parallel := true } }
    let schedule : List NodeId := [99, 0]
    serial.run oversizedGraph schedule = .error (.invalidNode 99) ∧
      parallel.run oversizedGraph schedule = .fault (.overflow .mul) ∧
      parallel.run oversizedGraph schedule ≠ serial.run oversizedGraph schedule := by
  intro serial parallel schedule
  have hserial : serial.run oversizedGraph schedule = .error (.invalidNode 99) := rfl
  have hparallel : parallel.run oversizedGraph schedule = .fault (.overflow .mul) := rfl
  refine ⟨hserial, hparallel, ?_⟩
  rw [hserial, hparallel]
  exact nofun

end Pass

end TensorLowering
