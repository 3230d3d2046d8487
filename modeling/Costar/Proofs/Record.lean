import Costar.Record
import Mathlib.Data.List.Nodup

/-!
# Records with distinct names

As long as no name is given twice, putting entries into a record is the same as writing them behind
it, and every entry is found under its name.  Which names there are is known in any case.

Main results:

- Theorem `Record.merge_of_nodup`: entries under new names come last, in their order.
- Theorem `Record.get?_of_mem`: an entry is found under its name.
- Theorem `Record.get?_merge`: an entry that is put in hides an older one under its name.
- Theorem `Record.mem_keys_merge`: the names of merged records, distinct or not.
-/

namespace Costar

namespace Record

variable {Name : Type} [DecidableEq Name] {r entries : Record Name} {key name : Name} {v : Value}

theorem put_of_not_mem (h : key ∉ r.keys) : r.put key v = r ++ [(key, v)] := by
  induction r with
  | nil => rfl
  | cons e rest ih =>
      rcases e with ⟨k, w⟩
      simp only [keys, List.map_cons, List.mem_cons, not_or] at h
      rw [put, if_neg (Ne.symm h.1), ih h.2, List.cons_append]

/-- Entries under new names come last, in their order. -/
theorem merge_of_nodup (h : (keys (r ++ entries)).Nodup) :
    r.merge entries = r ++ entries := by
  induction entries generalizing r with
  | nil => exact (List.append_nil r).symm
  | cons e entries ih =>
      rcases e with ⟨k, v⟩
      have hsplit : r ++ (k, v) :: entries = (r ++ [(k, v)]) ++ entries := by
        rw [List.append_assoc, List.singleton_append]
      have hk : k ∉ r.keys := by
        rw [keys, List.map_append, List.map_cons, List.nodup_append] at h
        intro hmem
        exact h.2.2 k hmem k List.mem_cons_self rfl
      rw [hsplit] at h ⊢
      rw [← ih h, ← put_of_not_mem hk]
      rfl

/-- An entry is found under its name, if no other has the same. -/
theorem get?_of_mem (h : r.keys.Nodup) (hmem : (key, v) ∈ r) : r.get? key = some v := by
  induction r with
  | nil => cases hmem
  | cons e rest ih =>
      rcases e with ⟨k, w⟩
      simp only [keys, List.map_cons, List.nodup_cons] at h
      rcases List.mem_cons.mp hmem with heq | hrest
      · cases heq
        simp [get?]
      · have hne : (key == k) = false := by
          rw [beq_eq_false_iff_ne]
          rintro rfl
          exact h.1 (List.mem_map_of_mem hrest)
        rw [get?, List.lookup_cons, hne]
        exact ih h.2 hrest

theorem get?_eq_none (h : key ∉ r.keys) : r.get? key = none := by
  rw [get?, List.lookup_eq_none_iff]
  intro e he
  have hne : e.1 ≠ key := by
    rintro rfl
    exact h (List.mem_map_of_mem he)
  simpa using Ne.symm hne

/-- A name is found among the entries that are put in, or else in the record. -/
theorem get?_merge (h : (keys entries).Nodup) :
    (r.merge entries).get? key = (get? entries key).or (r.get? key) := by
  induction entries generalizing r with
  | nil => rfl
  | cons e rest ih =>
      rcases e with ⟨k, v⟩
      rw [keys, List.map_cons, List.nodup_cons] at h
      have hstep : r.merge ((k, v) :: rest) = (r.put k v).merge rest := rfl
      rw [hstep, ih h.2]
      by_cases hk : key = k
      · subst hk
        rw [get?_eq_none h.1, get?_put_self]
        simp [get?]
      · have hne : (key == k) = false := by simpa using hk
        rw [get?_put_of_ne _ _ hk]
        simp [get?, List.lookup_cons, hne]

theorem mem_keys_put : name ∈ (r.put key v).keys ↔ name ∈ r.keys ∨ name = key := by
  rw [keys_put]
  split
  · rename_i hkey
    constructor
    · exact Or.inl
    · rintro (hname | rfl)
      · exact hname
      · exact hkey
  · rw [List.mem_append, List.mem_singleton]

/-- The names of merged records are those of the parts. -/
theorem mem_keys_merge :
    name ∈ (r.merge entries).keys ↔ name ∈ r.keys ∨ name ∈ keys entries := by
  induction entries generalizing r with
  | nil => simp [merge, keys]
  | cons e entries ih =>
      have hstep : r.merge (e :: entries) = (r.put e.1 e.2).merge entries := rfl
      rw [hstep, ih, mem_keys_put, or_assoc]
      simp [keys]

end Record

end Costar
