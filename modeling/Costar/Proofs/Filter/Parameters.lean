import Costar.Filter.Predicate
import Costar.Proofs.Cypher.Legible
import Costar.Proofs.Failure
import Mathlib.Data.List.Nodup

/-!
# Constraints and their parameters

A constraint that has been read is for a declared field, has as many operands as its operator
takes, and spells the key that it was read from.  A parameter's name can be taken apart again, into
the category up to the first underscore and the operator behind the last ones, so no parameter
serves two constraints.

Main results:

- Theorem `Constraint.declared_of_parse`: what is known of a constraint that has been read.
- Theorem `Constraint.eq_of_mem_names`: constraints that share a parameter ask the same of the same
  field.
- Theorem `Constraint.nodup_names`: the parameters of constraints under distinct keys are distinct.
-/

namespace Costar

open Cypher

namespace Constraint

/-- What is known of a constraint of a category that has been read. -/
structure Declared (c : Category) (k : Constraint) : Prop where
  category : k.category = c.name
  field : ∃ type, (k.field, type) ∈ c.fields
  operands : match k.operator with
    | .compare _ => ∃ operand, k.operands = [operand]
    | .range => ∃ low high, k.operands = [low, high]

/-- A constraint that has been read is declared and spells its key. -/
theorem declared_of_parse {c : Category} {key : Text} {v : Value} {k : Constraint}
    (h : parse c key v = .ok k) : k.Declared c ∧ k.key = key := by
  rcases Failure.bind_eq_ok.mp h with ⟨⟨field, operator⟩, hkey, h⟩
  have htext : (FilterKey.mk field operator).text = key := FilterKey.text_of_parse hkey
  split at h
  · cases h
  · rename_i type htype
    have hfield : ∃ type, (field, type) ∈ c.fields := by
      rcases List.lookup_eq_some_iff.mp htype with ⟨before, after, hfields, -⟩
      refine ⟨type, ?_⟩
      rw [hfields]
      exact List.mem_append_right before List.mem_cons_self
    cases operator with
    | compare comparison =>
        rcases Failure.bind_eq_ok.mp h with ⟨operand, -, h⟩
        cases h
        exact ⟨⟨rfl, hfield, operand, rfl⟩, htext⟩
    | range =>
        simp only at h
        split at h
        · rcases Failure.bind_eq_ok.mp h with ⟨low, -, h⟩
          rcases Failure.bind_eq_ok.mp h with ⟨high, -, h⟩
          cases h
          refine ⟨⟨rfl, hfield, ?_⟩, htext⟩
          simp only [sortBounds]
          split
          · exact ⟨high, low, rfl⟩
          · exact ⟨low, high, rfl⟩
        · cases h

/-! ## Names of parameters -/

/-- The names of the parameters of a constraint. -/
def names (k : Constraint) : List String :=
  match k.operator with
  | .compare _ => [k.parameterName]
  | .range => [k.parameterName ++ "_low", k.parameterName ++ "_high"]

/-- What stands behind the field in the names of the parameters of an operator. -/
def endings : Operator → List (List Char)
  | .compare comparison => ['_' :: (Operator.compare comparison).slug.toList]
  | .range => ["_in_low".toList, "_in_high".toList]

/-- The endings of all operators. -/
def allEndings : List (List Char) :=
  Operator.all.flatMap endings

theorem mem_all (op : Operator) : op ∈ Operator.all := by
  rcases op with (_ | _ | _ | _ | _) | _ <;> decide

theorem toList_of_mem_names {k : Constraint} {name : String} (h : name ∈ k.names) :
    ∃ ending ∈ endings k.operator,
      name.toList = k.category.toList ++ '_' :: (k.field.toList ++ ending) := by
  unfold names parameterName at h
  cases hop : k.operator with
  | compare comparison =>
      rw [hop] at h
      obtain rfl := List.mem_singleton.mp h
      refine ⟨_, List.mem_singleton.mpr rfl, ?_⟩
      simp
  | range =>
      rw [hop] at h
      rcases List.mem_cons.mp h with rfl | h
      · exact ⟨"_in_low".toList, by simp [endings], by simp [Operator.slug]⟩
      · obtain rfl := List.mem_singleton.mp h
        exact ⟨"_in_high".toList, by simp [endings], by simp [Operator.slug]⟩

/-- No ending ends in another, so a text has at most one of them. -/
theorem eq_of_endings {xs ys e f : List Char} (he : e ∈ allEndings) (hf : f ∈ allEndings)
    (h : xs ++ e = ys ++ f) : e = f ∧ xs = ys := by
  have hsuffix : ∀ e ∈ allEndings, ∀ f ∈ allEndings, e <:+ f → e = f := by decide
  have heq : e = f := by
    have hsuffixE : e <:+ xs ++ e := List.suffix_append xs e
    have hsuffixF : f <:+ xs ++ e := by
      rw [h]
      exact List.suffix_append ys f
    rcases List.suffix_or_suffix_of_suffix hsuffixE hsuffixF with hef | hfe
    · exact hsuffix e he f hf hef
    · exact (hsuffix f hf e he hfe).symm
  subst heq
  exact ⟨rfl, List.append_cancel_right h⟩

/-- An ending belongs to one operator. -/
theorem operator_of_endings {op other : Operator} {e : List Char} (h : e ∈ endings op)
    (hother : e ∈ endings other) : op = other := by
  have hall : ∀ op ∈ Operator.all, ∀ other ∈ Operator.all, ∀ e ∈ endings op,
      e ∈ endings other → op = other := by decide
  exact hall op (mem_all op) other (mem_all other) e h hother

/-- No category's name begins with another's. -/
theorem category_of_prefix {c d : Category} {xs ys : List Char}
    (h : c.name.toList ++ xs = d.name.toList ++ ys) : c = d := by
  have hbegins : ∀ c d : Category, c.name.toList <+: d.name.toList → c = d := by
    intro c d
    cases c <;> cases d <;> decide
  have hbeginC : c.name.toList <+: c.name.toList ++ xs := List.prefix_append _ xs
  have hbeginD : d.name.toList <+: c.name.toList ++ xs := by
    rw [h]
    exact List.prefix_append _ ys
  rcases List.prefix_or_prefix_of_prefix hbeginC hbeginD with hcd | hdc
  · exact hbegins c d hcd
  · exact (hbegins d c hdc).symm

/-- Constraints that share a parameter ask the same of the same field. -/
theorem eq_of_mem_names {c d : Category} {k l : Constraint} {name : String} (hk : k.Declared c)
    (hl : l.Declared d) (hnameK : name ∈ k.names) (hnameL : name ∈ l.names) :
    c = d ∧ k.field = l.field ∧ k.operator = l.operator := by
  rcases toList_of_mem_names hnameK with ⟨e, he, hname⟩
  rcases toList_of_mem_names hnameL with ⟨f, hf, hname'⟩
  rw [hname, hk.category, hl.category] at hname'
  obtain rfl := category_of_prefix hname'
  have hrest := List.append_cancel_left hname'
  obtain ⟨rfl, hfield⟩ := eq_of_endings (List.mem_flatMap.mpr ⟨_, mem_all k.operator, he⟩)
    (List.mem_flatMap.mpr ⟨_, mem_all l.operator, hf⟩) (List.cons.inj hrest).2
  exact ⟨rfl, String.toList_inj.mp hfield, operator_of_endings he hf⟩

theorem nodup_names_self (k : Constraint) : k.names.Nodup := by
  unfold names
  split
  · exact List.nodup_singleton _
  · rw [List.nodup_cons]
    refine ⟨?_, List.nodup_singleton _⟩
    intro h
    have heq := List.mem_singleton.mp h
    rw [← String.toList_inj, String.toList_append, String.toList_append] at heq
    exact absurd (List.append_cancel_left heq) (by decide)

/-- The parameters of constraints of one category under distinct keys are distinct. -/
theorem nodup_names {c : Category} {ks : List Constraint} (hks : ∀ k ∈ ks, k.Declared c)
    (hkeys : (ks.map key).Nodup) : (ks.flatMap names).Nodup := by
  rw [List.nodup_flatMap]
  refine ⟨fun k _ => nodup_names_self k, ?_⟩
  rw [List.Nodup, List.pairwise_map] at hkeys
  apply hkeys.imp_of_mem
  intro k l hk hl hne name hnameK hnameL
  rcases eq_of_mem_names (hks k hk) (hks l hl) hnameK hnameL with ⟨-, hfield, hoperator⟩
  exact hne (by rw [key, key, hfield, hoperator])

end Constraint

end Costar
