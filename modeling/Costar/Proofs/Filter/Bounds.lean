import Costar.Proofs.Filter.Compilation
import Costar.Proofs.Filter.Keys
import Costar.Proofs.Filter.Operands
import Costar.Proofs.Number.Overflow

/-!
# Bounds in either order

A range is asked for by two bounds, of which either may come first.  The values of an ordered type
form a chain, with one exception: NaN is neither below nor above nor equal to any number.  So two
bounds that are numbers make the same range in either order, the lower one first, and with a NaN
among them they keep the places in which they are given.

Main results:

- Theorem `Binary64.isNaN_of_ofInt?`: a whole number is never rounded to NaN.
- Theorem `FieldType.Has.trichotomy`: the values of an ordered type other than NaN form a chain.
- Theorem `Constraint.sortBounds_swap`: which bounds two values make in either order.
- Theorem `FilterKey.parse_text`: a declared field with an operator's suffix is read as such.
- Theorem `Constraint.exchangeable_iff`: two bounds may be exchanged unless one of them is NaN.
- Theorem `Constraint.nan_not_exchangeable`: a NaN and a number may not.
-/

namespace Costar

/-! ## NaN -/

namespace Binary64

variable {x y : Binary64}

theorem isNaN_iff : x.isNaN = true ↔ infiniteMagnitude < x.magnitude := by
  have hmagnitude : x.magnitude < signBit := Nat.mod_lt _ (by decide)
  unfold isNaN exponentField
  rw [fraction_eq_mod, Bool.and_eq_true, beq_iff_eq, bne_iff_ne]
  unfold infiniteMagnitude leadingBit
  unfold signBit at hmagnitude
  omega

/-- A whole number is never rounded to NaN. -/
theorem isNaN_of_ofInt? {n : Int} (h : ofInt? n = some x) : x.isNaN = false := by
  have hcut : ∀ negative m, (ofMagnitude negative (min m infiniteMagnitude)).isNaN = false := by
    intro negative m
    have hle : min m infiniteMagnitude ≤ infiniteMagnitude := Nat.min_le_right _ _
    rw [Bool.eq_false_iff, ne_eq, isNaN_iff, magnitude_ofMagnitude negative]
    · omega
    · unfold infiniteMagnitude at hle
      unfold signBit infiniteMagnitude
      omega
  have hx : x = ofRatio (n < 0) n.natAbs 1 := by
    unfold ofInt? at h
    simpa [eq_comm] using (Option.ite_none_left_eq_some.mp h).2
  rw [hx]
  by_cases hn : n.natAbs = 0
  · rw [hn]
    exact hcut _ 0
  · rw [ofRatio_one _ hn]
    exact hcut _ _

theorem lt_or_eqv_or_lt (hx : x.isNaN = false) (hy : y.isNaN = false) :
    x.lt y = true ∨ x.eqv y = true ∨ y.lt x = true := by
  simp only [lt, eqv, hx, hy, Bool.not_false, Bool.true_and, decide_eq_true_eq, beq_iff_eq]
  omega

theorem eqv_comm (x y : Binary64) : x.eqv y = y.eqv x := by
  simp only [eqv, Bool.and_comm, Bool.beq_comm]

theorem eqv_self (hx : x.isNaN = false) : x.eqv x = true := by
  simp [eqv, hx]

/-- NaN is no whole number. -/
theorem toInt?_of_isNaN (hx : x.isNaN = true) : x.toInt? = none := by
  have hfinite : x.isFinite = false := by
    simp only [isNaN, Bool.and_eq_true, beq_iff_eq] at hx
    simp [isFinite, hx.1]
  simp [toInt?, hfinite]

end Binary64

namespace Value

/-- Whether a value is NaN. -/
def isNaN : Value → Bool
  | .float x => x.isNaN
  | _ => false

/-- Whether one value is at most another. -/
def le (a b : Value) : Bool :=
  a.lt b || a.same b

/-- NaN is not at most anything. -/
theorem not_isNaN_of_le_left {a b : Value} (h : a.le b = true) : a.isNaN = false := by
  cases a with
  | float x =>
      rw [isNaN, Bool.eq_false_iff]
      intro hx
      cases b <;>
        simp [le, lt, same, wholeNumber?, Binary64.lt, Binary64.eqv, Binary64.toInt?_of_isNaN hx, hx]
          at h
  | _ => rfl

/-- Nothing is at most NaN. -/
theorem not_isNaN_of_le_right {a b : Value} (h : a.le b = true) : b.isNaN = false := by
  cases b with
  | float y =>
      rw [isNaN, Bool.eq_false_iff]
      intro hy
      cases a <;>
        simp [le, lt, same, sameNumber, sameDay, sameTime, isNull, Binary64.lt, Binary64.eqv,
          Binary64.toInt?_of_isNaN hy, hy] at h
  | _ => rfl

end Value

/-! ## Ordered types -/

namespace FieldType

variable {category field : Text} {t : FieldType} {a b v w : Value}

theorem has_int : FieldType.int.Has v ↔ ∃ n, v = .int n := by
  cases v <;> simp [Has, itemType?, HasScalar]

theorem has_float : FieldType.float.Has v ↔ ∃ x, v = .float x := by
  cases v <;> simp [Has, itemType?, HasScalar]

theorem has_date : FieldType.date.Has v ↔ ∃ d, v = .date d := by
  cases v <;> simp [Has, itemType?, HasScalar]

/-- The values of an ordered type other than NaN form a chain. -/
theorem Has.trichotomy (ht : t.isOrdered = true) (ha : t.Has a) (hb : t.Has b)
    (hnumA : a.isNaN = false) (hnumB : b.isNaN = false) :
    a.lt b = true ∨ (a.same b = true ∧ b.same a = true) ∨ b.lt a = true := by
  cases t with
  | int =>
      obtain ⟨n, rfl⟩ := has_int.mp ha
      obtain ⟨m, rfl⟩ := has_int.mp hb
      simp only [Value.lt, Value.same, Value.sameNumber, Value.wholeNumber?, decide_eq_true_eq,
        beq_iff_eq, Option.some.injEq]
      omega
  | float =>
      obtain ⟨x, rfl⟩ := has_float.mp ha
      obtain ⟨y, rfl⟩ := has_float.mp hb
      simp only [Value.lt, Value.same, Binary64.eqv_comm y x, and_self]
      exact Binary64.lt_or_eqv_or_lt hnumA hnumB
  | date =>
      obtain ⟨d, rfl⟩ := has_date.mp ha
      obtain ⟨e, rfl⟩ := has_date.mp hb
      simp only [Value.lt, Value.same, Value.sameDay, Date.lt, decide_eq_true_eq, beq_iff_eq]
      by_cases heq : d.rank = e.rank
      · have hde := Date.eq_of_rank_eq heq
        exact Or.inr (Or.inl ⟨hde, hde.symm⟩)
      · omega
  | _ => cases ht

/-- A value of an ordered type other than NaN is equal to itself. -/
theorem Has.same_self (ht : t.isOrdered = true) (hv : t.Has v) (hnum : v.isNaN = false) :
    v.same v = true := by
  cases t with
  | int =>
      obtain ⟨n, rfl⟩ := has_int.mp hv
      simp [Value.same, Value.sameNumber, Value.wholeNumber?]
  | float =>
      obtain ⟨x, rfl⟩ := has_float.mp hv
      exact Binary64.eqv_self hnum
  | date =>
      obtain ⟨d, rfl⟩ := has_date.mp hv
      simp [Value.same, Value.sameDay]
  | _ => cases ht

/-- Accepting a value for an ordered type neither makes nor removes NaN. -/
theorem isNaN_of_coerce (ht : t.isOrdered = true) (h : coerce category field t v = .ok w) :
    w.isNaN = v.isNaN := by
  have hscalar : coerceScalar category field t v = .ok w := by
    cases t <;> first | exact h | cases ht
  unfold coerceScalar at hscalar
  split at hscalar
  case h_2 n =>
    split at hscalar
    · rename_i x hx
      cases hscalar
      exact Binary64.isNaN_of_ofInt? hx
    · cases hscalar
  case h_8 =>
    split at hscalar <;> cases hscalar
    rfl
  case h_9 => cases hscalar
  all_goals
    cases hscalar
    rfl

end FieldType

/-! ## Bounds -/

namespace Constraint

variable {t : FieldType} {a b : Value}

/-- Whether a constraint is a range whose first bound is at most the second. -/
def InOrder (k : Constraint) : Prop :=
  ∃ low high, k.operands = [low, high] ∧ low.le high = true

/-- Two values of an ordered type make the same bounds in either order, the lower one first, as long
as neither is NaN. -/
theorem sortBounds_swap (ht : t.isOrdered = true) (ha : t.Has a) (hb : t.Has b)
    (hnumA : a.isNaN = false) (hnumB : b.isNaN = false) :
    ∃ low high low' high', sortBounds a b = [low, high] ∧ sortBounds b a = [low', high'] ∧
      low.same low' = true ∧ high.same high' = true ∧ low.le high = true ∧
      low'.le high' = true := by
  have hselfA := ha.same_self ht hnumA
  have hselfB := hb.same_self ht hnumB
  rcases FieldType.Has.trichotomy ht ha hb hnumA hnumB with hlt | ⟨hab, hba⟩ | hlt
  · have hnot := Value.lt_asymm hlt
    refine ⟨a, b, a, b, ?_, ?_, hselfA, hselfB, ?_, ?_⟩ <;> simp [sortBounds, Value.le, hlt, hnot]
  · -- Equal bounds, such as the two zeros, keep the places in which they are given.
    unfold sortBounds
    cases b.lt a <;> cases a.lt b <;> simp [Value.le, hab, hba, hselfA, hselfB]
  · have hnot := Value.lt_asymm hlt
    refine ⟨b, a, b, a, ?_, ?_, hselfB, hselfA, ?_, ?_⟩ <;> simp [sortBounds, Value.le, hlt, hnot]

/-- Sorting two bounds neither adds nor loses one. -/
theorem perm_sortBounds (a b : Value) : (sortBounds a b).Perm [a, b] := by
  unfold sortBounds
  split
  · exact List.Perm.swap a b []
  · exact List.Perm.refl _

end Constraint

/-! ## Keys of ranges -/

namespace FilterKey

/-- A declared field of an ordered type with an operator's suffix is read as such. -/
theorem parse_text {c : Category} {field : String} {t : FieldType} {op : Operator}
    (hfield : c.fieldType? field = some t) (ht : t.isOrdered = true) :
    parse c (FilterKey.mk field op).text = .ok ⟨field, op⟩ :=
  parse_eq_ok.mpr ⟨rfl, t, hfield, Or.inr ht⟩

end FilterKey

/-! ## Equal maps -/

namespace Value

variable {names : List Text} {vs ws : List Value}

theorem sameEntries_iff {es fs : List (Text × Value)} :
    sameEntries es fs = true ↔ ∀ e ∈ es, ∃ w, fs.lookup e.1 = some w ∧ e.2.same w = true := by
  induction es with
  | nil => simp [sameEntries]
  | cons e es ih =>
      rw [sameEntries, Bool.and_eq_true, ih, List.forall_mem_cons]
      apply and_congr_left'
      cases fs.lookup e.1 <;> simp

/-- Under one name stand equal values. -/
theorem exists_of_mem_zip (h : sameItems vs ws = true) {e : Text × Value}
    (he : e ∈ names.zip vs) : ∃ w, (e.1, w) ∈ names.zip ws ∧ e.2.same w = true := by
  induction names generalizing vs ws with
  | nil => simp at he
  | cons name names ih =>
      cases vs with
      | nil => simp at he
      | cons v vs =>
          cases ws with
          | nil => simp [sameItems] at h
          | cons w ws =>
              rw [sameItems, Bool.and_eq_true] at h
              rcases List.mem_cons.mp he with rfl | he
              · exact ⟨w, List.mem_cons_self, h.1⟩
              · obtain ⟨found, hmem, hsame⟩ := ih h.2 he
                exact ⟨found, List.mem_cons_of_mem _ hmem, hsame⟩

/-- Names with values that are equal one by one are equal as maps. -/
theorem same_map_zip (hnames : names.Nodup) (hvs : names.length = vs.length)
    (hws : names.length = ws.length) (h : sameItems vs ws = true) :
    (Value.map (names.zip vs)).same (.map (names.zip ws)) = true := by
  have hkeys : (Record.keys (names.zip ws)).Nodup := by
    rwa [Record.keys, List.map_fst_zip (Nat.le_of_eq hws)]
  rw [same, Bool.and_eq_true]
  constructor
  · simp [List.length_zip, ← hvs, ← hws]
  · rw [sameEntries_iff]
    intro e he
    obtain ⟨w, hmem, hsame⟩ := exists_of_mem_zip h he
    exact ⟨w, Record.get?_of_mem hkeys hmem, hsame⟩

/-- Strings with values that are equal one by one are equal as maps. -/
theorem same_toValue_zip {names : List String} (hnames : names.Nodup)
    (hvs : names.length = vs.length) (hws : names.length = ws.length)
    (h : sameItems vs ws = true) :
    (Record.toValue (names.zip vs)).same (Record.toValue (names.zip ws)) = true := by
  have hzip : ∀ us : List Value,
      Record.toValue (names.zip us) = .map ((names.map Text.whole).zip us) := by
    intro us
    rw [Record.toValue, List.zip_map_left]
    rfl
  rw [hzip, hzip]
  refine same_map_zip (hnames.map fun _ _ => Text.whole.inj) ?_ ?_ h
  · rwa [List.length_map]
  · rwa [List.length_map]

end Value

/-! ## Ranges -/

namespace Constraint

/-- Whether two constraints are equal, their operands being compared as values are. -/
def same (k l : Constraint) : Bool :=
  k.category == l.category && k.field == l.field && k.operator == l.operator &&
    Value.sameItems k.operands l.operands

/-- Whether one range can stand for another: the bounds of both are in order, they are equal, and
they are compiled to one condition with equal parameters. -/
structure Exchangeable (k l : Constraint) : Prop where
  same : k.same l = true
  inOrder : k.InOrder ∧ l.InOrder
  compiled : ∀ node, ∃ condition parameters parameters',
    k.compile node = .ok (condition, parameters) ∧ l.compile node = .ok (condition, parameters') ∧
      (Record.toValue parameters).same (Record.toValue parameters') = true

variable {c : Category} {field : String} {t : FieldType} {a b x y : Value}

theorem parameterValue_of_ordered (ht : t.isOrdered = true) (hx : t.Has x) :
    parameterValue x = x := by
  cases t with
  | int =>
      obtain ⟨n, rfl⟩ := FieldType.has_int.mp hx
      rfl
  | float =>
      obtain ⟨n, rfl⟩ := FieldType.has_float.mp hx
      rfl
  | date =>
      obtain ⟨n, rfl⟩ := FieldType.has_date.mp hx
      rfl
  | _ => cases ht

/-- The range that two accepted bounds of a field make. -/
def ofBounds (c : Category) (field : String) (x y : Value) : Constraint :=
  ⟨c.name, field, .range, sortBounds x y⟩

/-- A range is read from the list of its two bounds. -/
theorem parse_bounds (hfield : c.fieldType? field = some t) (ht : t.isOrdered = true)
    (ha : t.coerce c.name field a = .ok x) (hb : t.coerce c.name field b = .ok y) :
    parse c (FilterKey.mk field .range).text (.list [a, b]) = .ok (ofBounds c field x y) := by
  rw [parse_eq_ok]
  refine ⟨FilterKey.parse_text hfield ht, rfl, t, hfield, ?_⟩
  exact FieldType.operandsFor_range.mpr ⟨a, b, x, y, rfl, ha, hb, rfl⟩

/-- The bounds of a range are sent as they are. -/
theorem bindings_ofBounds (ht : t.isOrdered = true) (hx : t.Has x) (hy : t.Has y) :
    (ofBounds c field x y).bindings = (ofBounds c field x y).names.zip (sortBounds x y) := by
  have hvalues : ∀ v ∈ sortBounds x y, parameterValue v = id v := by
    intro v hv
    rw [(perm_sortBounds x y).mem_iff] at hv
    rcases List.mem_pair.mp hv with rfl | rfl
    · exact parameterValue_of_ordered ht hx
    · exact parameterValue_of_ordered ht hy
  unfold bindings
  congr 1
  exact (List.map_congr_left hvalues).trans (List.map_id _)

/-- Neither bound of a range that is in order is NaN. -/
theorem InOrder.not_isNaN (h : (ofBounds c field x y).InOrder) :
    x.isNaN = false ∧ y.isNaN = false := by
  obtain ⟨low, high, hoperands, hle⟩ := h
  have hall : ∀ v ∈ [x, y], v.isNaN = false := by
    intro v hv
    have hmem : v ∈ [low, high] := by
      rw [← hoperands]
      exact (perm_sortBounds x y).mem_iff.mpr hv
    rcases List.mem_pair.mp hmem with rfl | rfl
    · exact Value.not_isNaN_of_le_left hle
    · exact Value.not_isNaN_of_le_right hle
  exact ⟨hall x (by simp), hall y (by simp)⟩

/-- The two bounds of a range may be given in either order.  What is read has the bounds that are
accepted, and it is the same up to equality, with the lower bound first, exactly when neither of
them is NaN. -/
theorem exchangeable_iff (hfield : c.fieldType? field = some t) (ht : t.isOrdered = true)
    (ha : t.coerce c.name field a = .ok x) (hb : t.coerce c.name field b = .ok y) :
    ∃ k l, parse c (FilterKey.mk field .range).text (.list [a, b]) = .ok k ∧
      parse c (FilterKey.mk field .range).text (.list [b, a]) = .ok l ∧
      k.operands.Perm [x, y] ∧ l.operands.Perm [x, y] ∧
      (k.Exchangeable l ↔ a.isNaN = false ∧ b.isNaN = false) := by
  have hx := FieldType.has_of_coerce ha
  have hy := FieldType.has_of_coerce hb
  have hk := parse_bounds hfield ht ha hb
  have hl := parse_bounds hfield ht hb ha
  refine ⟨_, _, hk, hl, perm_sortBounds x y, (perm_sortBounds y x).trans (List.Perm.swap x y []), ?_⟩
  rw [← FieldType.isNaN_of_coerce ht ha, ← FieldType.isNaN_of_coerce ht hb]
  constructor
  · intro h
    exact h.inOrder.1.not_isNaN
  · rintro ⟨hnumX, hnumY⟩
    obtain ⟨low, high, low', high', hlowHigh, hlowHigh', hlow, hhigh, hle, hle'⟩ :=
      sortBounds_swap ht hx hy hnumX hnumY
    have hitems : Value.sameItems (sortBounds x y) (sortBounds y x) = true := by
      simp [hlowHigh, hlowHigh', Value.sameItems, hlow, hhigh]
    refine ⟨?_, ⟨⟨low, high, hlowHigh, hle⟩, low', high', hlowHigh', hle'⟩, ?_⟩
    · simp [same, ofBounds, hitems]
    · intro node
      refine ⟨_, _, _, compile_eq (declared_of_parse hk).1 node,
        compile_eq (declared_of_parse hl).1 node, ?_⟩
      rw [bindings_ofBounds ht hx hy, bindings_ofBounds ht hy hx]
      refine Value.same_toValue_zip (nodup_names_self _) ?_ ?_ hitems
      · rw [hlowHigh]
        rfl
      · rw [hlowHigh']
        rfl

/-- A whole number and a number bound the popularity of people, in either order. -/
theorem exchangeable_popularity :
    Category.person.fieldType? "popularity" = some .float ∧ FieldType.float.isOrdered = true ∧
      ∃ x y k l, FieldType.float.coerce "person" "popularity" (.int 3) = .ok x ∧
        FieldType.float.coerce "person" "popularity" (.float ⟨0x4004000000000000⟩) = .ok y ∧
        parse .person "popularity_IN" (.list [.int 3, .float ⟨0x4004000000000000⟩]) = .ok k ∧
        parse .person "popularity_IN" (.list [.float ⟨0x4004000000000000⟩, .int 3]) = .ok l ∧
        k.operands.Perm [x, y] ∧ k.Exchangeable l := by
  have hfield : Category.person.fieldType? "popularity" = some .float := by decide
  obtain ⟨x, hx⟩ : ∃ x, FieldType.float.coerce "person" "popularity" (.int 3) = .ok x := ⟨_, rfl⟩
  obtain ⟨y, hy⟩ : ∃ y, FieldType.float.coerce "person" "popularity"
      (.float ⟨0x4004000000000000⟩) = .ok y := ⟨_, rfl⟩
  obtain ⟨k, l, hk, hl, hperm, -, hiff⟩ := exchangeable_iff hfield rfl hx hy
  exact ⟨hfield, rfl, x, y, k, l, hx, hy, hk, hl, hperm, hiff.mpr ⟨rfl, by decide⟩⟩

/-- NaN and a number keep the places in which they are given: the two ranges differ, and neither has
its bounds in order. -/
theorem nan_not_exchangeable :
    ∃ k l, parse .person "popularity_IN" (.list [.float .nan, .float ⟨0x3FF0000000000000⟩]) = .ok k ∧
      parse .person "popularity_IN" (.list [.float ⟨0x3FF0000000000000⟩, .float .nan]) = .ok l ∧
      k.same l = false ∧ ¬ k.InOrder ∧ ¬ l.InOrder := by
  refine ⟨ofBounds .person "popularity" (.float .nan) (.float ⟨0x3FF0000000000000⟩),
    ofBounds .person "popularity" (.float ⟨0x3FF0000000000000⟩) (.float .nan), rfl, rfl, rfl, ?_, ?_⟩
  · intro h
    exact absurd h.not_isNaN.1 (by decide)
  · intro h
    exact absurd h.not_isNaN.2 (by decide)

end Constraint

end Costar
