/-!
Symbol tables: labels with their addresses, kept in the order of their names.
Names are ordered by code points, and a name has one address.
-/

namespace StackMachine

namespace Symbols

/-- Puts a name in its place; a name that is already there takes the new address. -/
def insertEntry (name : String) (address : Nat) : List (String × Nat) → List (String × Nat)
  | [] => [(name, address)]
  | entry :: rest =>
      if name < entry.1 then (name, address) :: entry :: rest
      else if name = entry.1 then (name, address) :: rest
      else entry :: insertEntry name address rest

theorem name_of_mem_insertEntry {name : String} {address : Nat} {entries : List (String × Nat)}
    {entry : String × Nat} (h : entry ∈ insertEntry name address entries) :
    entry.1 = name ∨ entry ∈ entries := by
  induction entries with
  | nil =>
      simp only [insertEntry, List.mem_singleton] at h
      exact .inl (by rw [h])
  | cons first rest ih =>
      simp only [insertEntry] at h
      split at h
      · rcases List.mem_cons.1 h with h | h
        · exact .inl (by rw [h])
        · exact .inr h
      · split at h
        · rcases List.mem_cons.1 h with h | h
          · exact .inl (by rw [h])
          · exact .inr (List.mem_cons_of_mem _ h)
        · rcases List.mem_cons.1 h with h | h
          · exact .inr (h ▸ List.mem_cons_self)
          · exact (ih h).imp_right (List.mem_cons_of_mem _)

def Ordered (entries : List (String × Nat)) : Prop :=
  entries.Pairwise fun a b => a.1 < b.1

theorem ordered_insertEntry (name : String) (address : Nat) {entries : List (String × Nat)}
    (h : Ordered entries) : Ordered (insertEntry name address entries) := by
  induction entries with
  | nil => exact List.pairwise_singleton _ _
  | cons first rest ih =>
      have hfirst := (List.pairwise_cons.1 h).1
      have hrest := (List.pairwise_cons.1 h).2
      simp only [insertEntry]
      split
      · rename_i hlt
        refine List.pairwise_cons.2 ⟨fun entry hentry => ?_, h⟩
        rcases List.mem_cons.1 hentry with rfl | hentry
        · exact hlt
        · exact String.lt_trans hlt (hfirst entry hentry)
      · split
        · rename_i heq
          exact List.pairwise_cons.2 ⟨fun entry hentry => heq ▸ hfirst entry hentry, hrest⟩
        · rename_i hnlt hne
          refine List.pairwise_cons.2 ⟨fun entry hentry => ?_, ih hrest⟩
          rcases name_of_mem_insertEntry hentry with hname | hentry
          · exact hname ▸ Std.lt_of_le_of_ne hnlt (Ne.symm hne)
          · exact hfirst entry hentry

theorem lookup_cons_if (entry : String × Nat) (entries : List (String × Nat)) (name : String) :
    (entry :: entries).lookup name =
      if name = entry.1 then some entry.2 else entries.lookup name := by
  obtain ⟨first, address⟩ := entry
  by_cases h : name = first
  · simp only [List.lookup_cons, h, beq_self_eq_true, if_true]
  · simp only [List.lookup_cons, beq_eq_false_iff_ne.2 h, h, if_false]

theorem lookup_insertEntry (name : String) (address : Nat) (entries : List (String × Nat))
    (other : String) :
    (insertEntry name address entries).lookup other =
      if other = name then some address else entries.lookup other := by
  induction entries with
  | nil => rw [insertEntry, lookup_cons_if]
  | cons first rest ih =>
      simp only [insertEntry]
      split
      · rw [lookup_cons_if]
      · split
        · rename_i heq
          rw [lookup_cons_if, lookup_cons_if, heq]
          split <;> rfl
        · rename_i hne
          rw [lookup_cons_if, lookup_cons_if, ih]
          by_cases h : other = name
          · rw [if_neg (h ▸ hne), if_pos h, if_pos h]
          · rw [if_neg h, if_neg h]

end Symbols

structure Symbols where
  entries : List (String × Nat)
  ordered : Symbols.Ordered entries
deriving DecidableEq

namespace Symbols

def empty : Symbols :=
  ⟨[], List.Pairwise.nil⟩

def insert (symbols : Symbols) (name : String) (address : Nat) : Symbols :=
  ⟨insertEntry name address symbols.entries, ordered_insertEntry name address symbols.ordered⟩

def find? (symbols : Symbols) (name : String) : Option Nat :=
  symbols.entries.lookup name

theorem find?_insert (symbols : Symbols) (name : String) (address : Nat) (other : String) :
    (symbols.insert name address).find? other =
      if other = name then some address else symbols.find? other :=
  lookup_insertEntry name address symbols.entries other

def namesAt (symbols : Symbols) (address : Nat) : List String :=
  (symbols.entries.filter fun entry => entry.2 == address).map Prod.fst

end Symbols

end StackMachine
