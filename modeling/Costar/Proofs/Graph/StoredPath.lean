import Costar.Graph.Store
import Costar.Proofs.Failure
import Costar.Proofs.Value.Same
import Mathlib.Data.List.Nodup

/-!
# Stored paths

A stored path lists its nodes and the relationships between them.  As a path of segments it
becomes a chain: the node at which a segment ends is the one at which the next begins.

Main results:

- Theorem `StoredPath.getElem?_toPath`: the segment at a position joins the two stored nodes there.
- Theorem `StoredPath.toPath_eq_missingNode`: a stored path that has too few nodes, and no other, fails.
- Structure `StoredPath.Unfolds`: what becomes of the others.
- Theorem `StoredPath.finish_eq_start`: each segment starts where the one before it ends.
- Theorem `StoredPath.Consistent.same_int`: where equal ids stand for equal nodes, the nodes of one
  id have the same whole numbers as their properties.
-/

namespace Costar

/-! ## Equal nodes -/

namespace Record

/-- Whether two records have equal values under the same names. -/
def Agrees (r s : Record) : Prop :=
  ∀ key, Option.Rel (fun v w => v = w ∨ v.same w = true) (r.get? key) (s.get? key)

theorem get?_toNative (r : Record) (key : Text) :
    r.toNative.get? key = (r.get? key).map Value.toNative := by
  induction r with
  | nil => rfl
  | cons e rest ih =>
      rcases e with ⟨k, v⟩
      simp only [toNative, get?, List.map_cons, List.lookup_cons] at ih ⊢
      split
      · rfl
      · exact ih

theorem getOrNull_toNative_same_int (r : Record) (key : Text) (n : Int) :
    (r.toNative.getOrNull key).same (.int n) = (r.getOrNull key).same (.int n) := by
  unfold getOrNull
  rw [get?_toNative]
  cases r.get? key with
  | none => rfl
  | some v => exact v.toNative_same_int n

theorem Agrees.same_int {r s : Record} {key : Text} {n : Int} (h : r.Agrees s)
    (hs : (s.getOrNull key).same (.int n) = true) : (r.getOrNull key).same (.int n) = true := by
  have hrel := h key
  unfold getOrNull at hs ⊢
  cases hr : r.get? key <;> cases hs' : s.get? key <;> rw [hr, hs'] at hrel <;> rw [hs'] at hs
  · exact hs
  · cases hrel
  · cases hrel
  · rename_i v w
    cases hrel with
    | some hvw =>
        rcases hvw with rfl | hvw
        · exact hs
        · exact Value.same_int_trans hvw hs

end Record

/-- Whether two nodes have the same labels and equal properties. -/
structure Node.Agrees (m n : Node) : Prop where
  labels : ∀ label, label ∈ m.labels ↔ label ∈ n.labels
  properties : Record.Agrees m.properties n.properties

/-- A stored path whose nodes agree wherever they have the same id. -/
def StoredPath.Consistent (p : StoredPath) : Prop :=
  ∀ m ∈ p.nodes, ∀ n ∈ p.nodes, m.id = n.id → m.Agrees n

/-- A store all of whose paths are consistent. -/
def Database.Consistent (db : Database) : Prop :=
  ∀ query rows, (db.paths query).toExcept = .ok rows →
    ∀ p, PathColumn.path p ∈ rows → p.Consistent

theorem Node.Agrees.refl (n : Node) : n.Agrees n where
  labels := fun _ => Iff.rfl
  properties := by
    intro key
    cases Record.get? n.properties key with
    | none => exact Option.Rel.none
    | some v => exact Option.Rel.some (Or.inl rfl)

/-- Nodes of different ids cannot disagree. -/
theorem StoredPath.consistent_of_nodup {p : StoredPath} (h : (p.nodes.map (·.id)).Nodup) :
    p.Consistent := by
  intro m hm n hn hid
  obtain rfl : m = n := List.inj_on_of_nodup_map h hm hn hid
  exact Node.Agrees.refl m

/-- A snapshot is consistent when the one path that it holds is. -/
theorem Store.consistent_database {s : Store} (h : ∀ p, s.path = some (.path p) → p.Consistent) :
    s.database.Consistent := by
  intro query rows hrows p hp
  change (s.replyPath query).toExcept = .ok rows at hrows
  unfold replyPath at hrows
  split at hrows
  · rename_i f _
    unfold StagedFault.reply at hrows
    split at hrows <;> cases hrows
  · cases hrows
    exact h p (Option.mem_toList.mp hp)

/-! ## Segments -/

namespace StoredPath

variable {p : StoredPath} {path : Path}

theorem segment_eq_ok {index : Nat} {r : Relationship} {s : Segment}
    (h : p.segment index r = .ok s) :
    ∃ a b, p.nodes[index]? = some a ∧ p.nodes[index + 1]? = some b ∧
      s = ⟨a.toNative, r.toNative, b.toNative⟩ := by
  unfold segment at h
  split at h
  · rename_i a b ha hb
    cases h
    exact ⟨a, b, ha, hb, rfl⟩
  · cases h

/-- The segment at a position joins the node at the position with the one after it. -/
theorem getElem?_toPath (h : p.toPath = .ok path) {i : Nat} {s : Segment}
    (hs : path[i]? = some s) :
    ∃ a b r, p.nodes[i]? = some a ∧ p.nodes[i + 1]? = some b ∧
      p.relationships[i]? = some r ∧ s = ⟨a.toNative, r.toNative, b.toNative⟩ := by
  rcases List.forall₂_iff_get.mp (Failure.mapM_eq_ok.mp h) with ⟨hlength, hget⟩
  rcases List.getElem?_eq_some_iff.mp hs with ⟨hi, hs⟩
  have hr : i < p.relationships.length := by
    rw [List.length_zipIdx] at hlength
    omega
  have hsegment := hget i (by omega) hi
  simp only [List.get_eq_getElem, List.getElem_zipIdx, Nat.zero_add, hs] at hsegment
  rcases segment_eq_ok hsegment with ⟨a, b, ha, hb, heq⟩
  exact ⟨a, b, p.relationships[i], ha, hb, List.getElem?_eq_getElem hr, heq⟩

/-- Each segment starts at the node at which the one before it ends. -/
theorem finish_eq_start (h : p.toPath = .ok path) {i : Nat} {s t : Segment}
    (hs : path[i]? = some s) (ht : path[i + 1]? = some t) : s.finish = t.start := by
  rcases getElem?_toPath h hs with ⟨_, b, _, _, hb, _, rfl⟩
  rcases getElem?_toPath h ht with ⟨a, _, _, ha, _, _, rfl⟩
  rw [hb] at ha
  cases ha
  rfl

/-- The nodes of a path are stored nodes with native values. -/
theorem exists_node_of_mem (h : p.toPath = .ok path) {s : Segment} (hs : s ∈ path) {n : Node}
    (hn : n = s.start ∨ n = s.finish) : ∃ a ∈ p.nodes, n = a.toNative := by
  rcases List.getElem?_of_mem hs with ⟨i, hi⟩
  rcases getElem?_toPath h hi with ⟨a, b, _, ha, hb, _, rfl⟩
  rcases hn with rfl | rfl
  · exact ⟨a, List.mem_of_getElem? ha, rfl⟩
  · exact ⟨b, List.mem_of_getElem? hb, rfl⟩

/-- A whole number that is a property of a node is one of every node with the same id. -/
theorem Consistent.same_int (hp : p.Consistent) (h : p.toPath = .ok path) {s t : Segment}
    (hs : s ∈ path) (ht : t ∈ path) {m n : Node} (hm : m = s.start ∨ m = s.finish)
    (hn : n = t.start ∨ n = t.finish) (hid : m.id = n.id) {key : Text} {k : Int}
    (hk : (Record.getOrNull n.properties key).same (.int k) = true) :
    (Record.getOrNull m.properties key).same (.int k) = true := by
  rcases exists_node_of_mem h hs hm with ⟨a, ha, rfl⟩
  rcases exists_node_of_mem h ht hn with ⟨b, hb, rfl⟩
  have hagrees : a.Agrees b := hp a ha b hb hid
  rw [Node.toNative, Record.getOrNull_toNative_same_int] at hk ⊢
  exact hagrees.properties.same_int hk

/-! ## Which stored paths become paths -/

/-- Whether a stored path has relationships, and too few nodes to stand between them. -/
def LacksNodes (p : StoredPath) : Prop :=
  1 ≤ p.relationships.length ∧ p.nodes.length < p.relationships.length + 1

theorem length_toPath (h : p.toPath = .ok path) : path.length = p.relationships.length := by
  have hlength := (Failure.mapM_eq_ok.mp h).length_eq
  rw [List.length_zipIdx] at hlength
  exact hlength.symm

theorem segment_eq_error {index : Nat} {r : Relationship} {f : Failure}
    (h : p.segment index r = .error f) :
    p.nodes.length ≤ index + 1 ∧ f = .missingNode (index + 1) := by
  unfold segment at h
  split at h
  · cases h
  · rename_i hnone
    cases h
    refine ⟨?_, rfl⟩
    by_contra hlt
    exact hnone _ _ (List.getElem?_eq_getElem (by omega)) (List.getElem?_eq_getElem (by omega))

/-- A stored path that does not become a path lacks nodes. -/
theorem toPath_eq_error {f : Failure} (h : p.toPath = .error f) :
    p.LacksNodes ∧ ∃ index, f = .missingNode index := by
  rcases Failure.mapM_eq_error.mp h with ⟨before, ⟨r, index⟩, after, hsplit, -, hsegment⟩
  rcases segment_eq_error hsegment with ⟨hle, rfl⟩
  have hmem : (r, index) ∈ p.relationships.zipIdx := by
    rw [hsplit]
    simp
  have hindex : index < p.relationships.length := by
    rcases List.mem_zipIdx hmem with ⟨-, hlt, -⟩
    omega
  exact ⟨⟨by omega, by omega⟩, index + 1, rfl⟩

/-- A stored path that lacks nodes does not become a path. -/
theorem not_lacksNodes (h : p.toPath = .ok path) : ¬ p.LacksNodes := by
  rintro ⟨hpos, hlt⟩
  have hlength := length_toPath h
  have hlast : path[p.relationships.length - 1]? = some path[p.relationships.length - 1] :=
    List.getElem?_eq_getElem (by omega)
  rcases getElem?_toPath h hlast with ⟨-, b, -, -, hb, -, -⟩
  rcases List.getElem?_eq_some_iff.mp hb with ⟨hnode, -⟩
  omega

/-- Only the lack of a node keeps a stored path from becoming a path. -/
theorem toPath_eq_missingNode (p : StoredPath) :
    (∃ index, p.toPath = .error (.missingNode index)) ↔ p.LacksNodes := by
  cases h : p.toPath with
  | ok path => simp [not_lacksNodes h]
  | error f =>
      rcases toPath_eq_error h with ⟨hlacks, index, rfl⟩
      exact iff_of_true ⟨index, rfl⟩ hlacks

/-- What becomes of a stored path: a segment for each relationship, from the node at the same
position to the next one.  The relationship points as it is stored, whichever way it is walked.  The
nodes that are passed are the first of those that are stored, one more than there are relationships,
or none where there are no relationships. -/
structure Unfolds (p : StoredPath) (path : Path) : Prop where
  length : path.length = p.relationships.length
  segment : ∀ i s, path[i]? = some s → ∃ a r b, p.nodes[i]? = some a ∧
    p.relationships[i]? = some r ∧ p.nodes[i + 1]? = some b ∧ s.start = a.toNative ∧
    s.relationship = r.toNative ∧ s.finish = b.toNative ∧
    s.relationship.start = r.start ∧ s.relationship.finish = r.finish
  nodes : path.nodes = if p.relationships = [] then []
    else (p.nodes.take (p.relationships.length + 1)).map Node.toNative

/-- The nodes of a path are the first of the stored ones. -/
theorem nodes_toPath (h : p.toPath = .ok path) :
    path.nodes = if p.relationships = [] then []
      else (p.nodes.take (p.relationships.length + 1)).map Node.toNative := by
  have hlength := length_toPath h
  cases path with
  | nil =>
      rw [if_pos (List.length_eq_zero_iff.mp hlength.symm)]
      rfl
  | cons s rest =>
      have hne : p.relationships ≠ [] := by
        rintro hnil
        simp [hnil] at hlength
      rw [if_neg hne]
      apply List.ext_getElem?
      intro i
      rw [List.getElem?_map]
      cases i with
      | zero =>
          rcases getElem?_toPath h (List.getElem?_cons_zero) with ⟨a, _, _, ha, -, -, rfl⟩
          simp [Path.nodes, ha]
      | succ i =>
          change ((s :: rest).map (·.finish))[i]? = _
          rw [List.getElem?_map]
          cases hs : (s :: rest)[i]? with
          | none =>
              have hle := List.getElem?_eq_none_iff.mp hs
              rw [List.getElem?_take, if_neg (by omega)]
              rfl
          | some t =>
              rcases getElem?_toPath h hs with ⟨_, b, _, -, hb, -, rfl⟩
              have hlt : i < (s :: rest).length := (List.getElem?_eq_some_iff.mp hs).1
              rw [List.getElem?_take, if_pos (by omega), hb]
              rfl

/-- A stored path that becomes a path unfolds into it. -/
theorem unfolds_of_toPath (h : p.toPath = .ok path) : p.Unfolds path where
  length := length_toPath h
  segment := by
    intro i s hs
    rcases getElem?_toPath h hs with ⟨a, b, r, ha, hb, hr, rfl⟩
    exact ⟨a, r, b, ha, hr, hb, rfl, rfl, rfl, rfl, rfl⟩
  nodes := nodes_toPath h

end StoredPath

end Costar
