/-!
# Named slots

The answers of an exercise are kept by the names of their slots.  The slots stand in increasing order
of their names, code point by code point, and no name stands twice.

## Main definitions

* `Slots`: values by name.
* `Slots.get?`, `Slots.insert`, `Slots.map`: looking up, putting in, changing all values.
-/

namespace EquationPractice

/-- Values by name, in increasing order of the names. -/
structure Slots (α : Type) where
  entries : List (String × α)
  increasing : entries.Pairwise (·.1 < ·.1)

namespace Slots

variable {α β : Type}

/-- No slots. -/
def empty : Slots α :=
  ⟨[], .nil⟩

/-- Puts a value into a list in order of names, in place of the value it had. -/
def insertEntry (name : String) (value : α) : List (String × α) → List (String × α)
  | [] => [(name, value)]
  | (other, old) :: rest =>
      if name < other then (name, value) :: (other, old) :: rest
      else if name = other then (name, value) :: rest
      else (other, old) :: insertEntry name value rest

theorem fst_of_mem_insertEntry {name : String} {value : α} {entries : List (String × α)}
    {entry : String × α} (hmem : entry ∈ insertEntry name value entries) :
    entry.1 = name ∨ entry ∈ entries := by
  induction entries with
  | nil => simp_all [insertEntry]
  | cons first rest ih =>
      obtain ⟨other, old⟩ := first
      simp only [insertEntry] at hmem
      split at hmem
      · simp only [List.mem_cons] at hmem ⊢
        rcases hmem with rfl | hrest
        · exact Or.inl rfl
        · exact Or.inr hrest
      · split at hmem
        · simp only [List.mem_cons] at hmem ⊢
          rcases hmem with rfl | hrest
          · exact Or.inl rfl
          · exact Or.inr (Or.inr hrest)
        · simp only [List.mem_cons] at hmem ⊢
          rcases hmem with rfl | hrest
          · exact Or.inr (Or.inl rfl)
          · rcases ih hrest with hname | hold
            · exact Or.inl hname
            · exact Or.inr (Or.inr hold)

theorem lt_of_not_lt_of_ne {a b : String} (hlt : ¬a < b) (hne : a ≠ b) : b < a := by
  rcases String.le_total a b with hle | hle
  · exact absurd (String.le_antisymm hle (String.not_lt.mp hlt)) hne
  · exact Std.lt_of_le_of_ne hle (Ne.symm hne)

theorem pairwise_insertEntry {name : String} {value : α} {entries : List (String × α)}
    (hincreasing : entries.Pairwise (·.1 < ·.1)) :
    (insertEntry name value entries).Pairwise (·.1 < ·.1) := by
  induction entries with
  | nil => simp [insertEntry]
  | cons first rest ih =>
      obtain ⟨other, old⟩ := first
      rw [List.pairwise_cons] at hincreasing
      simp only [insertEntry]
      split
      · next hlt =>
          refine List.pairwise_cons.mpr ⟨?_, List.pairwise_cons.mpr hincreasing⟩
          intro entry hentry
          rcases List.mem_cons.mp hentry with rfl | hrest
          · exact hlt
          · exact String.lt_trans hlt (hincreasing.1 entry hrest)
      · split
        · next heq =>
            subst heq
            exact List.pairwise_cons.mpr hincreasing
        · next hlt hne =>
            refine List.pairwise_cons.mpr ⟨?_, ih hincreasing.2⟩
            intro entry hentry
            rcases fst_of_mem_insertEntry hentry with hname | hold
            · rw [hname]
              exact lt_of_not_lt_of_ne hlt hne
            · exact hincreasing.1 entry hold

/-- Puts a value into a slot, in place of the value it had. -/
def insert (slots : Slots α) (name : String) (value : α) : Slots α :=
  ⟨insertEntry name value slots.entries, pairwise_insertEntry slots.increasing⟩

/-- The slots of a list of named values; a later value replaces an earlier one. -/
def ofList (entries : List (String × α)) : Slots α :=
  entries.foldl (fun slots entry => slots.insert entry.1 entry.2) empty

/-- A single slot. -/
def single (name : String) (value : α) : Slots α :=
  ⟨[(name, value)], List.pairwise_singleton ..⟩

/-- The value of a slot. -/
def get? (slots : Slots α) (name : String) : Option α :=
  slots.entries.lookup name

/-- The names of the slots, in increasing order. -/
def names (slots : Slots α) : List String :=
  slots.entries.map (·.1)

/-- Changes every value, given the name of its slot. -/
def map (f : String → α → β) (slots : Slots α) : Slots β :=
  ⟨slots.entries.map fun entry => (entry.1, f entry.1 entry.2),
    List.pairwise_map.mpr slots.increasing⟩

@[simp] theorem names_map (f : String → α → β) (slots : Slots α) :
    (slots.map f).names = slots.names := by
  simp [names, map]

end Slots

end EquationPractice
