import TensorLowering.Arithmetic.Word
import TensorLowering.Outcome
import TensorLowering.Text.Blank

set_option autoImplicit false

/-! # Workers

Independent jobs can be done by several threads. Which job is done when is up to the threads, and
what comes back is up to the pool that they belong to, so a group of workers is a parameter of
everything that is done on it: the order in which it completes jobs, which is any rearrangement of
their positions, the list that it makes of their results, and which of several faults reaches the
caller. Of the list it is known that the results are in their positions, and of the fault that it is
the one of the earliest position. Then the order leaves no trace (`Workers.mapM_eq_settle`). Jobs have
no effects, so it makes no difference which later ones a pool leaves undone once one has faulted. -/

namespace TensorLowering

/-- A group of workers, with what is known of it. -/
structure Workers where
  /-- The positions of a number of jobs, in the order in which these are completed. -/
  order : Nat → List Nat
  /-- The list made of results, each of which comes with the position of its job. -/
  collect : {β : Type} → List (Nat × β) → List β
  /-- The fault that reaches the caller, of faults that come with the positions of their jobs. -/
  raise : List (Nat × Fault) → Option Fault
  /-- Each job is completed once. -/
  order_perm : ∀ count, (order count).Perm (List.range count)
  /-- The list has every result in its position. -/
  collect_eq : ∀ {β : Type} {results : List (Nat × β)} {values : List β},
    results.Perm ((List.range values.length).zip values) → collect results = values
  /-- Without a fault, none reaches the caller. -/
  raise_nil : raise [] = none
  /-- The fault of the earliest position reaches the caller. -/
  raise_eq : ∀ {faults : List (Nat × Fault)} {position : Nat} {t : Fault},
    (position, t) ∈ faults → (∀ other ∈ faults, other = (position, t) ∨ position < other.1) →
      raise faults = some t

namespace Workers

variable {α β ε : Type}

/-- The results of a job on each item, with the position of the item, in the order of completion. -/
def completed (workers : Workers) (job : α → β) (items : List α) : List (Nat × β) :=
  (workers.order items.length).filterMap fun position =>
    items[position]?.map fun item => (position, job item)

/-- The faults among some results. -/
def faults (results : List (Nat × Outcome ε β)) : List (Nat × Fault) :=
  results.filterMap fun (position, outcome) => outcome.fault?.map fun t => (position, t)

/-- The outcome of a job on each item: the fault that reaches the caller, or else the error of the
    first result in the list that is one, or else every value. -/
def mapM (workers : Workers) (job : α → Outcome ε β) (items : List α) : Outcome ε (List β) :=
  let results := workers.completed job items
  match workers.raise (faults results) with
  | some t => .fault t
  | none => (workers.collect results).mapM id

/-- The outcome of jobs whose own outcomes are listed by position: the fault of the earliest job
    that faulted, or else the error of the earliest job that failed, or else every value. -/
def settle (outcomes : List (Outcome ε α)) : Outcome ε (List α) :=
  match outcomes.findSome? Outcome.fault? with
  | some t => .fault t
  | none => outcomes.mapM id

/-! ## Workers of any order -/

/-- The results in the order of the positions. -/
def byPosition (results : List (Nat × β)) : List β :=
  (List.range results.length).filterMap fun position => List.lookup position results

/-- The fault of the earliest position. -/
def earliest (faults : List (Nat × Fault)) : Option Fault :=
  (faults.find? fun fault => faults.all fun other => fault.1 ≤ other.1).map Prod.snd

/-- Values with their positions. -/
theorem mem_zip_range {values : List β} {position : Nat} {value : β} :
    (position, value) ∈ (List.range values.length).zip values ↔ values[position]? = some value := by
  simp only [List.mem_iff_getElem?, List.getElem?_zip_eq_some]
  constructor
  · intro ⟨index, hplace, hvalue⟩
    obtain ⟨hlt, heq⟩ := List.getElem?_eq_some_iff.1 hplace
    rw [List.getElem_range] at heq
    exact heq ▸ hvalue
  · intro hvalue
    have hlt := (List.getElem?_eq_some_iff.1 hvalue).1
    exact ⟨position, List.getElem?_range hlt, hvalue⟩

/-- Reading a list at each of its positions gives the list. -/
theorem filterMap_range_eq {results : List β} {read : Nat → Option β}
    (h : ∀ position, position < results.length → read position = results[position]?) :
    (List.range results.length).filterMap read = results := by
  induction results generalizing read with
  | nil => rfl
  | cons first rest ih =>
      have hfirst : read 0 = some first := by simpa using h 0 (by simp)
      have hrest := @ih (fun position => read (position + 1)) fun position hlt => by
        simpa using h (position + 1) (by simpa using hlt)
      rw [List.length_cons, List.range_succ_eq_map, List.filterMap_cons, hfirst,
        List.filterMap_map]
      exact congrArg (first :: ·) hrest

theorem lookup_eq_some_of_mem {results : List (Nat × β)} {position : Nat} {value : β}
    (hmem : (position, value) ∈ results)
    (hunique : ∀ other, (position, other) ∈ results → other = value) :
    List.lookup position results = some value := by
  induction results with
  | nil => cases hmem
  | cons first rest ih =>
      obtain ⟨place, found⟩ := first
      by_cases hplace : position = place
      · subst hplace
        rw [List.lookup_cons_self, hunique found List.mem_cons_self]
      · have hne : (position == place) = false := by simpa using hplace
        have hrest : (position, value) ∈ rest :=
          (List.mem_cons.1 hmem).resolve_left fun heq => hplace (congrArg Prod.fst heq)
        rw [List.lookup_cons, hne]
        exact ih hrest fun other hother => hunique other (List.mem_cons_of_mem _ hother)

theorem byPosition_eq {results : List (Nat × β)} {values : List β}
    (h : results.Perm ((List.range values.length).zip values)) : byPosition results = values := by
  have hlength : results.length = values.length := by simpa using h.length_eq
  have hmem : ∀ {position value}, (position, value) ∈ results ↔ values[position]? = some value :=
    h.mem_iff.trans mem_zip_range
  unfold byPosition
  rw [hlength]
  refine filterMap_range_eq ?_
  intro position hlt
  have hvalue := List.getElem?_eq_getElem hlt
  rw [hvalue]
  refine lookup_eq_some_of_mem (hmem.2 hvalue) ?_
  intro other hother
  exact Option.some.inj ((hmem.1 hother).symm.trans hvalue)

theorem earliest_eq {faults : List (Nat × Fault)} {position : Nat} {t : Fault}
    (hmem : (position, t) ∈ faults)
    (hlater : ∀ other ∈ faults, other = (position, t) ∨ position < other.1) :
    earliest faults = some t := by
  have hfirst : (faults.all fun other => position ≤ other.1) = true := by
    rw [List.all_eq_true]
    intro other hother
    rcases hlater other hother with rfl | hlt
    · exact decide_eq_true (Nat.le_refl position)
    · exact decide_eq_true (Nat.le_of_lt hlt)
  unfold earliest
  cases hfind : faults.find? fun fault => faults.all fun other => fault.1 ≤ other.1 with
  | none => exact absurd hfirst (List.find?_eq_none.1 hfind _ hmem)
  | some found =>
      have hle : found.1 ≤ position := by
        have hall := List.find?_some hfind
        exact of_decide_eq_true (List.all_eq_true.1 hall _ hmem)
      rcases hlater found (List.mem_of_find?_eq_some hfind) with rfl | hlt
      · rfl
      · exact absurd hle (Nat.not_le.2 hlt)

/-- The workers that complete jobs in a given order. -/
def ofOrder (order : Nat → List Nat) (order_perm : ∀ count, (order count).Perm (List.range count)) :
    Workers where
  order := order
  collect := byPosition
  raise := earliest
  order_perm := order_perm
  collect_eq := byPosition_eq
  raise_nil := rfl
  raise_eq := earliest_eq

/-- The workers that happen to complete jobs in the order of their positions. -/
def inOrder : Workers := ofOrder List.range fun _ => .refl _

/-! ## The order of completion leaves no trace -/

/-- What is completed are the results of all items, with their positions. -/
theorem completed_perm (workers : Workers) (job : α → β) (items : List α) :
    (workers.completed job items).Perm
      ((List.range (items.map job).length).zip (items.map job)) := by
  have hinOrder : (List.range items.length).filterMap
      (fun position => items[position]?.map fun item => (position, job item)) =
      (List.range items.length).zip (items.map job) := by
    have hlength : ((List.range items.length).zip (items.map job)).length = items.length := by simp
    have h := @filterMap_range_eq _ ((List.range items.length).zip (items.map job))
      (fun position => items[position]?.map fun item => (position, job item))
    rw [hlength] at h
    refine h ?_
    intro position hlt
    simp [hlt]
  rw [List.length_map, ← hinOrder]
  exact (workers.order_perm items.length).filterMap _

theorem collect_completed (workers : Workers) (job : α → β) (items : List α) :
    workers.collect (workers.completed job items) = items.map job :=
  workers.collect_eq (workers.completed_perm job items)

theorem mem_faults_completed {workers : Workers} {job : α → Outcome ε β} {items : List α}
    {position : Nat} {t : Fault} :
    (position, t) ∈ faults (workers.completed job items) ↔
      ∃ outcome, (items.map job)[position]? = some outcome ∧ outcome.fault? = some t := by
  unfold faults
  rw [List.mem_filterMap]
  constructor
  · intro ⟨⟨place, outcome⟩, hmem, hfault⟩
    obtain ⟨t', ht', heq⟩ := Option.map_eq_some_iff.1 hfault
    cases heq
    exact ⟨outcome, mem_zip_range.1 ((workers.completed_perm job items).mem_iff.1 hmem), ht'⟩
  · intro ⟨outcome, houtcome, hfault⟩
    refine ⟨(position, outcome), ?_, by simp [hfault]⟩
    exact (workers.completed_perm job items).mem_iff.2 (mem_zip_range.2 houtcome)

/-- The fault that reaches the caller is that of the earliest job that faulted. -/
theorem raise_faults_completed (workers : Workers) (job : α → Outcome ε β) (items : List α) :
    workers.raise (faults (workers.completed job items)) =
      (items.map job).findSome? Outcome.fault? := by
  cases hfind : (items.map job).findSome? Outcome.fault? with
  | none =>
      have hnil : faults (workers.completed job items) = [] := by
        refine List.eq_nil_iff_forall_not_mem.2 ?_
        intro ⟨position, t⟩ hmem
        obtain ⟨outcome, houtcome, hfault⟩ := mem_faults_completed.1 hmem
        have hnone := List.findSome?_eq_none_iff.1 hfind _ (List.mem_of_getElem? houtcome)
        rw [hfault] at hnone
        cases hnone
      rw [hnil, workers.raise_nil]
  | some t =>
      obtain ⟨before, outcome, after, hsplit, hfault, hbefore⟩ :=
        List.findSome?_eq_some_iff.1 hfind
      have hhere : (items.map job)[before.length]? = some outcome := by
        rw [hsplit, List.getElem?_append_right (Nat.le_refl _), Nat.sub_self]
        rfl
      refine workers.raise_eq (mem_faults_completed.2 ⟨outcome, hhere, hfault⟩) ?_
      intro ⟨position, other⟩ hmem
      obtain ⟨outcome', houtcome', hfault'⟩ := mem_faults_completed.1 hmem
      rcases Nat.lt_trichotomy position before.length with hlt | rfl | hgt
      · -- No job before the first that faulted has a fault.
        rw [hsplit, List.getElem?_append_left hlt] at houtcome'
        have hnone := hbefore _ (List.mem_of_getElem? houtcome')
        rw [hfault'] at hnone
        cases hnone
      · cases hhere.symm.trans houtcome'
        cases hfault.symm.trans hfault'
        exact .inl rfl
      · exact .inr hgt

/-- The outcome on workers, without mention of what they do. -/
theorem mapM_eq_settle (workers : Workers) (job : α → Outcome ε β) (items : List α) :
    workers.mapM job items = settle (items.map job) := by
  simp only [mapM, settle, raise_faults_completed, collect_completed]

/-! ## What decides the outcome of a group -/

/-- A group ends with values exactly if each of its jobs does. -/
theorem settle_eq_ok {outcomes : List (Outcome ε α)} {values : List α} :
    settle outcomes = .ok values ↔ outcomes = values.map .ok := by
  unfold settle
  cases hfind : outcomes.findSome? Outcome.fault? with
  | none => rw [Outcome.mapM_eq_ok, List.map_id]
  | some t =>
      refine ⟨nofun, ?_⟩
      rintro rfl
      obtain ⟨outcome, hmem, hfault⟩ := List.exists_of_findSome?_eq_some hfind
      obtain ⟨value, -, rfl⟩ := List.mem_map.1 hmem
      cases hfault

/-- A group fails with the error of one of its jobs. -/
theorem mem_of_settle_eq_error {outcomes : List (Outcome ε α)} {e : ε}
    (h : settle outcomes = .error e) : .error e ∈ outcomes := by
  unfold settle at h
  split at h
  · cases h
  · obtain ⟨before, outcome, after, rfl, -, houtcome⟩ := Outcome.mapM_eq_error.1 h
    rw [← houtcome]
    simp

/-- Restating what each job yields restates what the group yields. -/
theorem settle_map_comm (f : α → β) (outcomes : List (Outcome ε α)) :
    settle (outcomes.map (f <$> ·)) = List.map f <$> settle outcomes := by
  have hfault (outcome : Outcome ε α) : (f <$> outcome).fault? = outcome.fault? := by
    cases outcome <;> rfl
  have hfind : (outcomes.map (f <$> ·)).findSome? Outcome.fault? =
      outcomes.findSome? Outcome.fault? := by
    rw [List.findSome?_map]
    exact congrArg (List.findSome? · outcomes) (funext hfault)
  unfold settle
  rw [hfind]
  cases outcomes.findSome? Outcome.fault? with
  | some t => rfl
  | none =>
      rw [List.mapM_map]
      exact Outcome.mapM_map_comm f id outcomes

/-- Where no job faults, a group ends as its jobs do one after another. -/
theorem mapM_eq_mapM (workers : Workers) {job : α → Outcome ε β} {items : List α}
    (h : ∀ item ∈ items, ∀ t, job item ≠ .fault t) :
    workers.mapM job items = items.mapM job := by
  have hnone : (items.map job).findSome? Outcome.fault? = none := by
    simpa using h
  rw [mapM_eq_settle, settle, hnone, List.mapM_map]
  rfl

/-- The fault of the earliest job that faults decides, whatever the other jobs do. -/
theorem mapM_eq_fault (workers : Workers) {job : α → Outcome ε β} {before after : List α} {item : α}
    {t : Fault} (hbefore : ∀ earlier ∈ before, ∀ t, job earlier ≠ .fault t)
    (h : job item = .fault t) :
    workers.mapM job (before ++ item :: after) = .fault t := by
  have hnone : (before.map job).findSome? Outcome.fault? = none := by
    simpa using hbefore
  have hsome : Outcome.fault? (job item) = some t := Outcome.fault?_eq_some.2 h
  rw [mapM_eq_settle, settle, List.map_append, List.findSome?_append, hnone, List.map_cons,
    List.findSome?_cons, hsome]
  rfl

/-- A fault of any job becomes a fault of the group. -/
theorem exists_mapM_eq_fault (workers : Workers) {job : α → Outcome ε β} {items : List α}
    (h : ∃ item ∈ items, ∃ t, job item = .fault t) : ∃ t, workers.mapM job items = .fault t := by
  obtain ⟨item, hitem, t, ht⟩ := h
  rw [mapM_eq_settle, settle]
  cases hfind : (items.map job).findSome? Outcome.fault? with
  | some first => exact ⟨first, rfl⟩
  | none =>
      have hnone := List.findSome?_eq_none_iff.1 hfind _ (List.mem_map_of_mem hitem)
      rw [ht] at hnone
      cases hnone

end Workers

/-! ## The number of threads -/

/-- The threads that a group of workers runs on. -/
structure ThreadPool where
  threads : Nat
deriving DecidableEq, Repr

/-- Do a job on a pool. The job ends as it would without the pool. -/
def ThreadPool.run {α : Type} (_ : ThreadPool) (job : Unit → α) : α := job ()

/-- The value of a numeral in decimal digits. -/
def numeralValue (digits : List Char) : Nat :=
  digits.foldl (fun value digit => 10 * value + (digit.toNat - '0'.toNat)) 0

/-- The word that a text spells: an optional plus sign and one or more decimal digits. -/
def wordOfText? (text : List Char) : Option Nat :=
  let digits := match text with
    | '+' :: rest => rest
    | other => other
  if digits ≠ [] ∧ digits.all Char.isDigit ∧ numeralValue digits < Word.size then
    some (numeralValue digits)
  else none

/-- The number of threads that a text asks for, brought into the range from one to `limit`, which
    counts as one if it is zero. Blanks around the number do not matter; a text that is no number
    asks for nothing. -/
def threadsOfText? (text : String) (limit : Nat) : Checked (Option Nat) :=
  match wordOfText? (trimBlanks text.toList) with
  | some requested => do return some (← Word.clamp requested 1 (max limit 1))
  | none => .ok none

end TensorLowering
