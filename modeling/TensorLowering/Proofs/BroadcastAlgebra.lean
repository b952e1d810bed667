import TensorLowering.Shape.Broadcast

set_option autoImplicit false

/-! # The algebra of broadcasting

Broadcasting works place by place, where places are counted from the innermost dimension and a
shape has ones at all places that it does not reach. So what holds of two dimensions holds of two
shapes: which of them broadcast together and what to (`Shape.broadcast_eq_some_iff`), and that
broadcasting is a partial operation that can be regrouped and reordered at will
(`Shape.broadcast_isPartialSemilattice`). -/

namespace TensorLowering

/-- A partial operation that has a unit, commutes, takes an element and itself to that element, and
    can be grouped either way; where one grouping has no result, the other has none. -/
structure IsPartialSemilattice {α : Type} (op : α → α → Option α) (unit : α) : Prop where
  comm : ∀ a b, op a b = op b a
  unit_op : ∀ a, op unit a = some a
  op_self : ∀ a, op a a = some a
  assoc : ∀ a b c, (op a b).bind (fun ab => op ab c) = (op b c).bind fun bc => op a bc

namespace Shape

/-- The dimension at a place counted from the innermost one. Missing dimensions are ones. -/
def fromInnermost (shape : Shape) (place : Nat) : Nat := shape.reverse.getD place 1

/-- Dimensions match if they are equal or one of them is one. -/
def DimsMatch (m n : Nat) : Prop := m = n ∨ m = 1 ∨ n = 1

/-- The one of two matching dimensions that is not one, or the dimension that both are. -/
def commonDim (m n : Nat) : Nat := if m = 1 then n else m

/-! ## Two dimensions -/

theorem broadcastDim_eq_some_iff {m n d : Nat} :
    broadcastDim m n = some d ↔ DimsMatch m n ∧ d = commonDim m n := by
  rw [broadcastDim_eq_some, DimsMatch, commonDim]
  split <;> omega

theorem exists_broadcastDim_iff {m n : Nat} : (∃ d, broadcastDim m n = some d) ↔ DimsMatch m n := by
  simp only [broadcastDim_eq_some_iff, exists_and_left, exists_eq, and_true]

/-- Dimensions of which neither is one match only if they are equal. -/
theorem broadcastDim_of_ne_one {m n : Nat} (hm : m ≠ 1) (hn : n ≠ 1) :
    broadcastDim m n = if m = n then some m else none := by
  simp [broadcastDim, hm, hn]

theorem broadcastDim_assoc (m n o : Nat) :
    ((broadcastDim m n).bind fun d => broadcastDim d o) =
      (broadcastDim n o).bind fun d => broadcastDim m d := by
  -- A one among the three takes no part in either grouping.
  by_cases hm : m = 1
  · simp [hm]
  by_cases hn : n = 1
  · simp [hn]
  by_cases ho : o = 1
  · simp [ho]
  rw [broadcastDim_of_ne_one hm hn, broadcastDim_of_ne_one hn ho]
  by_cases hmn : m = n
  · subst hmn
    by_cases hmo : m = o
    · simp [hmo]
    · simp [hmo, broadcastDim_of_ne_one hm ho]
  · by_cases hno : n = o
    · subst hno
      simp [hmn, broadcastDim_of_ne_one hm hn]
    · simp [hmn, hno]

/-! ## Dimensions place by place -/

/-- Lists of the same length that agree at each place are equal. -/
theorem eq_of_getD {ms ns : List Nat} (hlength : ms.length = ns.length)
    (h : ∀ place, ms.getD place 1 = ns.getD place 1) : ms = ns := by
  refine List.ext_getElem hlength fun place hms hns => ?_
  simpa [List.getD_eq_getElem?_getD, hms, hns] using h place

/-- There is a result exactly if the dimensions match at each place. -/
theorem exists_broadcastInnermost_iff {ms ns : List Nat} :
    (∃ ds, broadcastInnermost ms ns = some ds) ↔
      ∀ place, DimsMatch (ms.getD place 1) (ns.getD place 1) := by
  induction ms generalizing ns with
  | nil => simp [DimsMatch]
  | cons m ms ih =>
      cases ns with
      | nil => simp [DimsMatch]
      | cons n ns =>
          have hplaces : (∀ place, DimsMatch ((m :: ms).getD place 1) ((n :: ns).getD place 1)) ↔
              DimsMatch m n ∧ ∀ place, DimsMatch (ms.getD place 1) (ns.getD place 1) := by
            constructor
            · intro h
              exact ⟨h 0, fun place => h (place + 1)⟩
            · rintro ⟨hfirst, hrest⟩ (_ | place)
              · exact hfirst
              · exact hrest place
          rw [hplaces, ← ih, ← exists_broadcastDim_iff]
          simp only [broadcastInnermost_cons, Option.bind_eq_some_iff, Option.map_eq_some_iff]
          constructor
          · rintro ⟨_, d, hd, ds, hds, rfl⟩
            exact ⟨⟨d, hd⟩, ds, hds⟩
          · rintro ⟨⟨d, hd⟩, ds, hds⟩
            exact ⟨d :: ds, d, hd, ds, hds, rfl⟩

/-- The result is as long as the longer list, and has at each place what the dimensions there
    broadcast to. -/
theorem getD_broadcastInnermost {ms ns ds : List Nat} (h : broadcastInnermost ms ns = some ds) :
    ds.length = max ms.length ns.length ∧
      ∀ place, broadcastDim (ms.getD place 1) (ns.getD place 1) = some (ds.getD place 1) := by
  induction ms generalizing ns ds with
  | nil =>
      rw [broadcastInnermost_nil_left, Option.some.injEq] at h
      subst h
      simp
  | cons m ms ih =>
      cases ns with
      | nil =>
          rw [broadcastInnermost_nil_right, Option.some.injEq] at h
          subst h
          simp
      | cons n ns =>
          simp only [broadcastInnermost_cons, Option.bind_eq_some_iff, Option.map_eq_some_iff] at h
          obtain ⟨d, hd, rest, hrest, rfl⟩ := h
          obtain ⟨hlength, hplaces⟩ := ih hrest
          refine ⟨?_, ?_⟩
          · simp only [List.length_cons, hlength]
            omega
          · rintro (_ | place)
            · exact hd
            · exact hplaces place

/-- Of three lists, the innermost dimensions broadcast as the others do, in the grouping of the
    lists. -/
theorem broadcastInnermost_cons_bind (m n o : Nat) (ms ns os : List Nat) :
    ((broadcastInnermost (m :: ms) (n :: ns)).bind fun ds => broadcastInnermost ds (o :: os)) =
      ((broadcastDim m n).bind fun d => broadcastDim d o).bind fun d =>
        ((broadcastInnermost ms ns).bind fun ds => broadcastInnermost ds os).map (d :: ·) := by
  rw [broadcastInnermost_cons]
  cases broadcastDim m n with
  | none => rfl
  | some d => cases broadcastInnermost ms ns <;> simp [broadcastInnermost_cons]

theorem broadcastInnermost_bind_cons (m n o : Nat) (ms ns os : List Nat) :
    ((broadcastInnermost (n :: ns) (o :: os)).bind fun ds => broadcastInnermost (m :: ms) ds) =
      ((broadcastDim n o).bind fun d => broadcastDim m d).bind fun d =>
        ((broadcastInnermost ns os).bind fun ds => broadcastInnermost ms ds).map (d :: ·) := by
  rw [broadcastInnermost_cons]
  cases broadcastDim n o with
  | none => rfl
  | some d => cases broadcastInnermost ns os <;> simp [broadcastInnermost_cons]

theorem broadcastInnermost_assoc (ms ns os : List Nat) :
    ((broadcastInnermost ms ns).bind fun ds => broadcastInnermost ds os) =
      (broadcastInnermost ns os).bind fun ds => broadcastInnermost ms ds := by
  induction ms generalizing ns os with
  | nil => simp
  | cons m ms ih =>
      cases ns with
      | nil => simp
      | cons n ns =>
          cases os with
          | nil => simp
          | cons o os =>
              rw [broadcastInnermost_cons_bind, broadcastInnermost_bind_cons, broadcastDim_assoc,
                ih]

theorem broadcastInnermost_self (ns : List Nat) : broadcastInnermost ns ns = some ns := by
  induction ns with
  | nil => rfl
  | cons n ns ih => simp [broadcastInnermost_cons, ih]

/-! ## Shapes -/

theorem broadcast_eq_some {a b r : Shape} :
    a.broadcast b = some r ↔ broadcastInnermost a.reverse b.reverse = some r.reverse := by
  rw [broadcast, Option.map_eq_some_iff]
  constructor
  · rintro ⟨ds, hds, rfl⟩
    rwa [List.reverse_reverse]
  · intro h
    exact ⟨r.reverse, h, List.reverse_reverse r⟩

/-- Two shapes broadcast together exactly if their dimensions match at each place. -/
theorem exists_broadcast_iff {a b : Shape} :
    (∃ r, a.broadcast b = some r) ↔
      ∀ place, DimsMatch (a.fromInnermost place) (b.fromInnermost place) := by
  refine Iff.trans ?_ exists_broadcastInnermost_iff
  simp only [broadcast_eq_some]
  constructor
  · rintro ⟨r, hr⟩
    exact ⟨r.reverse, hr⟩
  · rintro ⟨ds, hds⟩
    exact ⟨ds.reverse, by rwa [List.reverse_reverse]⟩

/-- The result is as long as the longer shape, and has at each place the dimension that counts. -/
theorem broadcast_eq_some_iff {a b r : Shape} :
    a.broadcast b = some r ↔
      (∀ place, DimsMatch (a.fromInnermost place) (b.fromInnermost place)) ∧
        r.rank = max a.rank b.rank ∧
        ∀ place, r.fromInnermost place =
          commonDim (a.fromInnermost place) (b.fromInnermost place) := by
  have hresult : ∀ s : Shape, a.broadcast b = some s → s.rank = max a.rank b.rank ∧
      ∀ place, s.fromInnermost place =
        commonDim (a.fromInnermost place) (b.fromInnermost place) := by
    intro s hs
    obtain ⟨hlength, hplaces⟩ := getD_broadcastInnermost (broadcast_eq_some.1 hs)
    simp only [List.length_reverse] at hlength
    exact ⟨hlength, fun place => (broadcastDim_eq_some_iff.1 (hplaces place)).2⟩
  constructor
  · intro h
    exact ⟨exists_broadcast_iff.1 ⟨r, h⟩, hresult r h⟩
  · rintro ⟨hmatch, hrank, hdims⟩
    -- There is some result, and its rank and dimensions are those of `r`.
    obtain ⟨s, hs⟩ := exists_broadcast_iff.2 hmatch
    obtain ⟨hsRank, hsDims⟩ := hresult s hs
    have hreverse : s.reverse = r.reverse := by
      refine eq_of_getD ?_ fun place => (hsDims place).trans (hdims place).symm
      rw [List.length_reverse, List.length_reverse]
      exact hsRank.trans hrank.symm
    rwa [← List.reverse_inj.1 hreverse]

theorem broadcast_assoc (a b c : Shape) :
    ((a.broadcast b).bind fun ab => ab.broadcast c) =
      (b.broadcast c).bind fun bc => a.broadcast bc := by
  have hassoc := broadcastInnermost_assoc a.reverse b.reverse c.reverse
  simp only [broadcast, Option.bind_map, Function.comp_def, List.reverse_reverse]
  calc ((broadcastInnermost a.reverse b.reverse).bind fun ds =>
        (broadcastInnermost ds c.reverse).map List.reverse)
      = ((broadcastInnermost a.reverse b.reverse).bind fun ds =>
          broadcastInnermost ds c.reverse).map List.reverse := (Option.map_bind ..).symm
    _ = ((broadcastInnermost b.reverse c.reverse).bind fun ds =>
          broadcastInnermost a.reverse ds).map List.reverse := congrArg _ hassoc
    _ = (broadcastInnermost b.reverse c.reverse).bind fun ds =>
          (broadcastInnermost a.reverse ds).map List.reverse := Option.map_bind ..

/-- **Broadcasting is a partial semilattice.** Two shapes broadcast together exactly if at each
    place, counted from the innermost, their dimensions are equal or one of them is one, where a
    missing dimension counts as one. The result has the rank of the longer shape, and at each place
    the dimension that is not one, or the one that both shapes have. Broadcasting does not depend on
    the order or the grouping of shapes, not even in whether it fails, the empty shape makes no
    difference to it, and a shape broadcasts with itself to itself. -/
theorem broadcast_isPartialSemilattice :
    (∀ a b : Shape, (∃ r, a.broadcast b = some r) ↔
      ∀ place, DimsMatch (a.fromInnermost place) (b.fromInnermost place)) ∧
    (∀ a b r : Shape, a.broadcast b = some r ↔
      (∀ place, DimsMatch (a.fromInnermost place) (b.fromInnermost place)) ∧
        r.rank = max a.rank b.rank ∧
        ∀ place, r.fromInnermost place =
          commonDim (a.fromInnermost place) (b.fromInnermost place)) ∧
    IsPartialSemilattice broadcast [] := by
  refine ⟨fun a b => exists_broadcast_iff, fun a b r => broadcast_eq_some_iff, ?_⟩
  exact
    { comm := broadcast_comm
      unit_op := broadcast_nil_left
      op_self := fun a => broadcast_eq_some.2 (broadcastInnermost_self a.reverse)
      assoc := broadcast_assoc }

/-- Three shapes of different ranks, where the one between the others has ones to spare. -/
example :
    (broadcast [4, 1, 3] [5, 1]).bind (fun shape => shape.broadcast [3]) = some [4, 5, 3] ∧
      broadcast [0] [2] = none := by
  decide

end Shape

end TensorLowering
